import RecordService.Fault

namespace RecordService

variable {ε α β γ : Type}

@[simp] theorem ok_bind (a : α) (f : α → Except ε β) : (Except.ok a >>= f) = f a := rfl

@[simp] theorem error_bind (e : ε) (f : α → Except ε β) :
    (Except.error e >>= f) = Except.error e := rfl

theorem bind_eq_ok {x : Except ε α} {f : α → Except ε β} {b : β} :
    (x >>= f) = .ok b ↔ ∃ a, x = .ok a ∧ f a = .ok b := by
  cases x <;> simp

theorem map_eq_ok {x : Except ε α} {f : α → β} {b : β} :
    x.map f = .ok b ↔ ∃ a, x = .ok a ∧ f a = b := by
  cases x <;> simp [Except.map]

theorem orBadRequest_eq_ok {x : Except QueryError α} {a : α} :
    orBadRequest x = .ok a ↔ x = .ok a := by
  cases x with
  | error e => exact iff_of_false nofun nofun
  | ok b => exact ⟨fun h ↦ congrArg Except.ok (Except.ok.inj h), fun h ↦ congrArg orBadRequest h⟩

theorem mapM_eq_ok {f : α → Except ε β} {g : α → β} {as : List α} (h : ∀ a ∈ as, f a = .ok (g a)) :
    as.mapM f = .ok (as.map g) := by
  induction as with
  | nil => rfl
  | cons a as ih =>
    obtain ⟨ha, has⟩ := List.forall_mem_cons.mp h
    rw [List.mapM_cons, ha, ok_bind, ih has, ok_bind]
    rfl

section Succeeds

variable {x : Except ε α} {y : Except ε β}

theorem both_eq_ok {f : α → β → γ} {c : γ} :
    (do let a ← x; let b ← y; .ok (f a b)) = .ok c ↔
      ∃ a b, x = .ok a ∧ y = .ok b ∧ c = f a b := by
  cases x <;> cases y <;> simp [eq_comm]

theorem exists_map_eq_ok {f : α → β} : (∃ b, x.map f = .ok b) ↔ ∃ a, x = .ok a := by
  cases x <;> simp [Except.map]

/-- Two steps that do not depend on each other succeed together when each of them does. -/
theorem exists_both_eq_ok {f : α → β → γ} :
    (∃ c, (do let a ← x; let b ← y; .ok (f a b)) = .ok c) ↔ (∃ a, x = .ok a) ∧ ∃ b, y = .ok b := by
  cases x <;> cases y <;> simp

theorem exists_mapM_eq_ok {f : α → Except ε β} {as : List α} :
    (∃ bs, as.mapM f = .ok bs) ↔ ∀ a ∈ as, ∃ b, f a = .ok b := by
  induction as with
  | nil => exact iff_of_true ⟨[], rfl⟩ (List.forall_mem_nil _)
  | cons a as ih =>
    rw [List.mapM_cons, List.forall_mem_cons, ← ih]
    exact exists_both_eq_ok

/-- Steps taken one after the other are refused as the first of them is that is refused. -/
theorem mapM_eq_error {f : α → Except ε β} {as : List α} {e : ε} : as.mapM f = .error e ↔
    ∃ before a after, as = before ++ a :: after ∧ (∀ b ∈ before, ∃ c, f b = .ok c) ∧
      f a = .error e := by
  induction as with
  | nil => exact iff_of_false nofun (by simp)
  | cons a as ih =>
    rw [List.mapM_cons]
    cases ha : f a with
    | error e' =>
      rw [error_bind]
      constructor
      · intro h
        exact ⟨[], a, as, rfl, nofun, by rw [ha, Except.error.inj h]⟩
      · rintro ⟨before, b, after, heq, hbefore, hb⟩
        cases before with
        | nil =>
          obtain ⟨rfl, rfl⟩ := List.cons.inj heq
          rw [← Except.error.inj (ha.symm.trans hb)]
        | cons c before =>
          obtain ⟨rfl, rfl⟩ := List.cons.inj heq
          obtain ⟨d, hd⟩ := hbefore a List.mem_cons_self
          cases ha.symm.trans hd
    | ok b =>
      have hrest : (as.mapM f >>= fun bs ↦ pure (b :: bs)) = .error e ↔ as.mapM f = .error e := by
        cases as.mapM f <;> simp [pure, Except.pure]
      rw [ok_bind, hrest, ih]
      constructor
      · rintro ⟨before, c, after, rfl, hbefore, hc⟩
        exact ⟨a :: before, c, after, rfl, List.forall_mem_cons.mpr ⟨⟨b, ha⟩, hbefore⟩, hc⟩
      · rintro ⟨before, c, after, heq, hbefore, hc⟩
        cases before with
        | nil =>
          obtain ⟨rfl, rfl⟩ := List.cons.inj heq
          cases ha.symm.trans hc
        | cons d before =>
          obtain ⟨rfl, rfl⟩ := List.cons.inj heq
          exact ⟨before, c, after, rfl, (List.forall_mem_cons.mp hbefore).2, hc⟩

theorem mem_mapM_iff {f : α → Except ε β} {as : List α} {bs : List β} (h : as.mapM f = .ok bs)
    (b : β) : b ∈ bs ↔ ∃ a ∈ as, f a = .ok b := by
  induction as generalizing bs with
  | nil =>
    cases h
    simp
  | cons a as ih =>
    rw [List.mapM_cons] at h
    obtain ⟨b', bs', hb', hbs', rfl⟩ := both_eq_ok.mp h
    simp only [List.mem_cons, exists_eq_or_imp, ih hbs', hb', Except.ok.injEq, @eq_comm _ b]

/-- What is true of each result just when something is of its source is true of all results just
when that is of all sources. -/
theorem forall_mapM_iff {f : α → Except ε β} {as : List α} {bs : List β} {P : α → Prop}
    {Q : β → Prop} (h : as.mapM f = .ok bs) (hPQ : ∀ a ∈ as, ∀ b, f a = .ok b → (Q b ↔ P a)) :
    (∀ b ∈ bs, Q b) ↔ ∀ a ∈ as, P a := by
  constructor
  · intro hbs a ha
    obtain ⟨b, hb⟩ := exists_mapM_eq_ok.mp ⟨bs, h⟩ a ha
    exact (hPQ a ha b hb).mp (hbs b ((mem_mapM_iff h b).mpr ⟨a, ha, hb⟩))
  · intro has b hb
    obtain ⟨a, ha, hab⟩ := (mem_mapM_iff h b).mp hb
    exact (hPQ a ha b hab).mpr (has a ha)

theorem exists_mapM_iff {f : α → Except ε β} {as : List α} {bs : List β} {P : α → Prop}
    {Q : β → Prop} (h : as.mapM f = .ok bs) (hPQ : ∀ a ∈ as, ∀ b, f a = .ok b → (Q b ↔ P a)) :
    (∃ b ∈ bs, Q b) ↔ ∃ a ∈ as, P a := by
  constructor
  · rintro ⟨b, hb, hQ⟩
    obtain ⟨a, ha, hab⟩ := (mem_mapM_iff h b).mp hb
    exact ⟨a, ha, (hPQ a ha b hab).mp hQ⟩
  · rintro ⟨a, ha, hP⟩
    obtain ⟨b, hb⟩ := exists_mapM_eq_ok.mp ⟨bs, h⟩ a ha
    exact ⟨b, (mem_mapM_iff h b).mpr ⟨a, ha, hb⟩, (hPQ a ha b hb).mpr hP⟩

end Succeeds

section RefusedOnly

variable {P : ε → Prop} {x : Except ε α} {y : Except ε β}

def RefusedOnly (P : ε → Prop) (x : Except ε α) : Prop := ∀ e, x = .error e → P e

theorem RefusedOnly.ok (P : ε → Prop) (a : α) : RefusedOnly P (.ok a : Except ε α) := nofun

theorem RefusedOnly.map {f : α → β} (h : RefusedOnly P x) : RefusedOnly P (x.map f) := by
  cases x with
  | error e => exact fun e' he ↦ h e' (congrArg Except.error (Except.error.inj he))
  | ok a => exact .ok P (f a)

theorem RefusedOnly.both {f : α → β → γ} (hx : RefusedOnly P x) (hy : RefusedOnly P y) :
    RefusedOnly P (do let a ← x; let b ← y; .ok (f a b)) := by
  cases x with
  | error e => exact fun e' he ↦ hx e' (congrArg Except.error (Except.error.inj he))
  | ok a => exact hy.map

theorem RefusedOnly.mapM {f : α → Except ε β} {as : List α} (h : ∀ a ∈ as, RefusedOnly P (f a)) :
    RefusedOnly P (as.mapM f) := by
  induction as with
  | nil => exact .ok P []
  | cons a as ih =>
    obtain ⟨ha, has⟩ := List.forall_mem_cons.mp h
    rw [List.mapM_cons]
    exact ha.both (ih has)

/-- A step whose refusals are described by what is never true succeeds. -/
theorem RefusedOnly.exists_ok (h : RefusedOnly P x) (hP : ∀ e, ¬ P e) : ∃ a, x = .ok a := by
  cases x with
  | error e => exact absurd (h e rfl) (hP e)
  | ok a => exact ⟨a, rfl⟩

end RefusedOnly

section Alike

variable {α' β' γ' : Type} {R : α → α' → Prop} {S : β → β' → Prop} {T : γ → γ' → Prop}
  {x : Except ε α} {x' : Except ε α'} {y : Except ε β} {y' : Except ε β'}

/-- Both steps succeed, with related values, or both are refused. -/
def Alike (R : α → α' → Prop) : Except ε α → Except ε α' → Prop
  | .ok a, .ok a' => R a a'
  | .error _, .error _ => True
  | _, _ => False

theorem Alike.map {f : α → β} {f' : α' → β'} (h : Alike R x x')
    (hf : ∀ a a', R a a' → S (f a) (f' a')) : Alike S (x.map f) (x'.map f') := by
  cases x <;> cases x' <;> first | exact h | exact hf _ _ h

theorem Alike.imp {R' : α → α' → Prop} (h : Alike R x x') (hR : ∀ a a', R a a' → R' a a') :
    Alike R' x x' := by
  cases x <;> cases x' <;> first | exact h | exact hR _ _ h

theorem Alike.bind {f : α → Except ε β} {f' : α' → Except ε β'} (h : Alike R x x')
    (hf : ∀ a a', R a a' → Alike S (f a) (f' a')) : Alike S (x >>= f) (x' >>= f') := by
  cases x with
  | error e =>
    cases x' with
    | error e' => trivial
    | ok a' => exact False.elim h
  | ok a =>
    cases x' with
    | error e' => exact False.elim h
    | ok a' => exact hf a a' h

/-- Steps are alike that succeed on the same condition, when their values are related. -/
theorem alike_of_toOption {δ : Type} {r : Option δ} {g : δ → α} {g' : δ → α'}
    (h : x.toOption = r.map g) (h' : x'.toOption = r.map g') (hR : ∀ d ∈ r, R (g d) (g' d)) :
    Alike R x x' := by
  cases r with
  | none => cases x <;> cases x' <;> trivial
  | some d =>
    cases x with
    | error e => cases h
    | ok a =>
      cases x' with
      | error e => cases h'
      | ok a' =>
        obtain rfl := Option.some_inj.mp h
        obtain rfl := Option.some_inj.mp h'
        exact hR d rfl

theorem Alike.both {f : α → β → γ} {f' : α' → β' → γ'} (hx : Alike R x x') (hy : Alike S y y')
    (hf : ∀ a a' b b', R a a' → S b b' → T (f a b) (f' a' b')) :
    Alike T (do let a ← x; let b ← y; .ok (f a b)) (do let a ← x'; let b ← y'; .ok (f' a b)) := by
  cases x with
  | error e =>
    cases x' with
    | error e' => trivial
    | ok a' => exact False.elim hx
  | ok a =>
    cases x' with
    | error e' => exact False.elim hx
    | ok a' => exact hy.map fun b b' hb ↦ hf a a' b b' hx hb

theorem Alike.exists_iff (h : Alike R x x') : (∃ a, x = .ok a) ↔ ∃ a', x' = .ok a' := by
  cases x <;> cases x' <;> simp_all [Alike]

end Alike

def NotFound (x : Except Fault α) : Prop := ∃ fault, x = .error fault ∧ fault.isNotFound

section NotFound

variable {x : Except Fault α} {f : α → Except Fault β}

@[simp] theorem not_notFound_ok (a : α) : ¬ NotFound (.ok a) := by
  rintro ⟨_, h, -⟩
  cases h

@[simp] theorem notFound_error {fault : Fault} :
    NotFound (.error fault : Except Fault α) ↔ fault.isNotFound := by
  constructor
  · rintro ⟨_, h, hfault⟩
    rwa [Except.error.inj h]
  · exact fun h ↦ ⟨fault, rfl, h⟩

theorem not_notFound_orBadRequest (x : Except QueryError α) : ¬ NotFound (orBadRequest x) := by
  cases x with
  | error e => exact mt notFound_error.mp Bool.false_ne_true
  | ok a => exact not_notFound_ok a

/-- Steps that never miss anything leave it to the first step whether something is not there. -/
theorem notFound_bind (hf : ∀ a, ¬ NotFound (f a)) : NotFound (x >>= f) ↔ NotFound x := by
  cases x with
  | error fault => rw [error_bind, notFound_error, notFound_error]
  | ok a => rw [ok_bind]; exact iff_of_false (hf a) (not_notFound_ok a)

end NotFound

end RecordService
