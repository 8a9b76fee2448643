import RecordService.Dict
import Mathlib.Data.List.Nodup

namespace RecordService.Dict

variable {β γ : Type} {key : String} {value : β} {d d' : Dict β}

theorem mem_of_get? (h : get? key d = some value) : (key, value) ∈ d := by
  induction d with
  | nil => cases h
  | cons entry d ih =>
    rw [get?] at h
    split at h
    · rename_i hkey
      cases h
      exact List.mem_cons.mpr (.inl (by rw [hkey]))
    · exact List.mem_cons_of_mem entry (ih h)

theorem get?_modify_self (key : String) (f : β → β) (d : Dict β) :
    get? key (modify key f d) = (get? key d).map f := by
  induction d with
  | nil => rfl
  | cons p d ih =>
    obtain ⟨k, v⟩ := p
    by_cases h : key = k
    · simp [modify, get?, h]
    · simp [modify, get?, h, ih]

theorem get?_modify_of_ne {key other : String} (h : other ≠ key) (f : β → β) (d : Dict β) :
    get? other (modify key f d) = get? other d := by
  induction d with
  | nil => rfl
  | cons p d ih =>
    obtain ⟨k, v⟩ := p
    by_cases hk : key = k
    · subst hk
      simp [modify, get?, h]
    · simp [modify, get?, hk, ih]

/-- Only what stands under the key counts. -/
theorem modify_congr {f g : β → β} (h : ∀ v, get? key d = some v → f v = g v) :
    modify key f d = modify key g d := by
  induction d with
  | nil => rfl
  | cons p d ih =>
    obtain ⟨k, v⟩ := p
    by_cases hk : key = k
    · have hv : f v = g v := h v (by simp [get?, hk])
      simp [modify, hk, hv]
    · have hrest := ih fun v hv ↦ h v (by simpa [get?, hk] using hv)
      simp [modify, hk, hrest]

theorem modify_id (key : String) (d : Dict β) : modify key id d = d := by
  induction d with
  | nil => rfl
  | cons p d ih =>
    obtain ⟨k, v⟩ := p
    simp [modify, ih]

theorem get?_filter (keep : String → Bool) (key : String) (d : Dict β) :
    get? key (d.filter fun p ↦ keep p.1) = if keep key then get? key d else none := by
  induction d with
  | nil => simp
  | cons p d ih =>
    obtain ⟨k, v⟩ := p
    by_cases hk : key = k
    · subst hk
      cases h : keep key <;> simp_all [get?]
    · cases h : keep k <;> simp [h, get?, hk, ih]

theorem mem_insert {p : String × β} (h : p ∈ insert key value d) : p = (key, value) ∨ p ∈ d := by
  induction d with
  | nil => exact .inl (List.mem_singleton.mp h)
  | cons entry d ih =>
    simp only [insert] at h
    split at h
    · exact (List.mem_cons.mp h).imp_right (List.mem_cons_of_mem entry)
    · split at h
      · exact List.mem_cons.mp h
      · rcases List.mem_cons.mp h with rfl | h
        · exact .inr List.mem_cons_self
        · exact (ih h).imp_right (List.mem_cons_of_mem entry)

theorem insert_insert (key : String) (value value' : β) (d : Dict β) :
    insert key value (insert key value' d) = insert key value d := by
  induction d with
  | nil => simp [insert]
  | cons p d ih =>
    simp only [insert]
    split
    · simp [insert]
    · split
      · simp [insert]
      · simp [insert, *]

theorem insert_comm {key other : String} (h : key ≠ other) (value value' : β) (d : Dict β) :
    insert key value (insert other value' d) = insert other value' (insert key value d) := by
  have hle := @String.not_lt
  have hasymm := @String.lt_asymm
  have hanti := @String.le_antisymm
  have htrans := @String.lt_trans
  induction d with
  | nil => grind [insert]
  | cons p d ih => grind [insert]

theorem erase_of_get?_eq_none (h : get? key d = none) : erase key d = d := by
  induction d with
  | nil => rfl
  | cons p d ih =>
    rw [get?] at h
    split at h
    · cases h
    · rename_i hne
      simpa [erase, Ne.symm hne] using ih h

section Sorted

instance (d : Dict β) : Decidable (Sorted d) :=
  inferInstanceAs (Decidable (d.Pairwise fun p q ↦ p.1 < q.1))

theorem sorted_nil : Sorted ([] : Dict β) := List.Pairwise.nil

theorem Sorted.filter (h : Sorted d) (keep : String × β → Bool) : Sorted (d.filter keep) :=
  h.sublist List.filter_sublist

theorem Sorted.erase (h : Sorted d) (key : String) : Sorted (Dict.erase key d) := h.filter _

theorem Sorted.insert (h : Sorted d) (key : String) (value : β) :
    Sorted (Dict.insert key value d) := by
  induction d with
  | nil => exact List.pairwise_singleton _ _
  | cons entry d ih =>
    obtain ⟨hfirst, hrest⟩ := List.pairwise_cons.mp h
    simp only [Dict.insert]
    split
    · rename_i heq
      exact List.pairwise_cons.mpr ⟨heq ▸ hfirst, hrest⟩
    · rename_i hne
      split
      · rename_i hlt
        refine List.pairwise_cons.mpr ⟨fun p hp ↦ ?_, h⟩
        rcases List.mem_cons.mp hp with rfl | hp
        · exact hlt
        · exact String.lt_trans hlt (hfirst p hp)
      · rename_i hle
        have hlt : entry.1 < key := by
          by_contra hnot
          exact hne (String.le_antisymm (String.not_lt.mp hnot) (String.not_lt.mp hle))
        refine List.pairwise_cons.mpr ⟨fun p hp ↦ ?_, ih hrest⟩
        rcases mem_insert hp with rfl | hp
        · exact hlt
        · exact hfirst p hp

/-- Whatever order its pairs come in, a dictionary that is read has its keys in order. -/
theorem sorted_ofList (pairs : List (String × β)) : Sorted (ofList pairs) := by
  have hfold : ∀ d : Dict β, Sorted d →
      Sorted (pairs.foldl (fun d p ↦ Dict.insert p.1 p.2 d) d) := by
    induction pairs with
    | nil => exact fun d hd ↦ hd
    | cons p pairs ih => exact fun d hd ↦ ih _ (hd.insert p.1 p.2)
  exact hfold [] sorted_nil

theorem mem_of_mem_foldl_insert {p : String × β} {pairs : List (String × β)}
    (h : p ∈ pairs.foldl (fun d p ↦ insert p.1 p.2 d) d) : p ∈ d ∨ p ∈ pairs := by
  induction pairs generalizing d with
  | nil => exact .inl h
  | cons q pairs ih =>
    obtain h | h := ih h
    · obtain rfl | h := mem_insert h
      · exact .inr List.mem_cons_self
      · exact .inl h
    · exact .inr (List.mem_cons_of_mem q h)

theorem mem_of_mem_ofList {p : String × β} {pairs : List (String × β)} (h : p ∈ ofList pairs) :
    p ∈ pairs :=
  (mem_of_mem_foldl_insert h).resolve_left nofun

theorem sorted_iff : Sorted d ↔ (d.map (·.1)).Pairwise (· < ·) := List.pairwise_map.symm

theorem keys_modify (key : String) (f : β → β) (d : Dict β) :
    (modify key f d).map (·.1) = d.map (·.1) := by
  induction d with
  | nil => rfl
  | cons entry d ih =>
    simp only [modify]
    split
    · rfl
    · rw [List.map_cons, List.map_cons, ih]

theorem Sorted.modify (h : Sorted d) (key : String) (f : β → β) : Sorted (Dict.modify key f d) := by
  rw [sorted_iff, keys_modify]
  exact sorted_iff.mp h

theorem Sorted.get?_eq_some (h : Sorted d) : get? key d = some value ↔ (key, value) ∈ d := by
  refine ⟨mem_of_get?, fun hmem ↦ ?_⟩
  induction d with
  | nil => cases hmem
  | cons entry d ih =>
    obtain ⟨hfirst, hrest⟩ := List.pairwise_cons.mp h
    rcases List.mem_cons.mp hmem with rfl | hmem
    · exact if_pos rfl
    · have hlt : entry.1 < key := hfirst _ hmem
      have hne : ¬ key = entry.1 := fun heq ↦ String.lt_irrefl key (by rwa [← heq] at hlt)
      rw [get?, if_neg hne]
      exact ih hrest hmem

theorem Sorted.nodup (h : Sorted d) : d.Nodup := by
  refine List.Pairwise.imp (fun {p q} hlt heq ↦ ?_) h
  exact String.lt_irrefl q.1 (heq ▸ hlt)

/-- The keys are in order in both, so equal values for equal keys leave no room for a difference. -/
theorem Sorted.ext (h : Sorted d) (h' : Sorted d') (heq : ∀ key, get? key d = get? key d') :
    d = d' := by
  have hperm : d.Perm d' := by
    rw [List.perm_ext_iff_of_nodup h.nodup h'.nodup]
    rintro ⟨key, value⟩
    rw [← h.get?_eq_some, ← h'.get?_eq_some, heq]
  exact hperm.eq_of_pairwise (fun a b _ _ hab hba ↦ absurd hba (String.lt_asymm hab)) h h'

theorem Sorted.insert_own (h : Sorted d) (hget : get? key d = some value) :
    Dict.insert key value d = d := by
  refine (h.insert key value).ext h fun other ↦ ?_
  by_cases heq : other = key
  · rw [heq, get?_insert_self, hget]
  · rw [get?_insert_of_ne heq]

theorem Sorted.erase_insert (h : Sorted d) (hnew : get? key d = none) (value : β) :
    Dict.erase key (Dict.insert key value d) = d := by
  refine ((h.insert key value).erase key).ext h fun other ↦ ?_
  by_cases heq : other = key
  · rw [heq, get?_erase_self, hnew]
  · rw [get?_erase_of_ne heq, get?_insert_of_ne heq]

end Sorted

def put (key : String) : Option β → Dict β → Dict β
  | some value, d => insert key value d
  | none, d => erase key d

theorem get?_put (key other : String) (value? : Option β) (d : Dict β) :
    get? other (put key value? d) = if other = key then value? else get? other d := by
  by_cases h : other = key
  · subst h
    cases value? with
    | none => rw [if_pos rfl, put, get?_erase_self]
    | some value => rw [if_pos rfl, put, get?_insert_self]
  · cases value? with
    | none => rw [if_neg h, put, get?_erase_of_ne h]
    | some value => rw [if_neg h, put, get?_insert_of_ne h]

theorem Sorted.put (h : Sorted d) (key : String) (value? : Option β) :
    Sorted (Dict.put key value? d) := by
  cases value? with
  | none => exact h.erase key
  | some value => exact h.insert key value

theorem Sorted.modify_eq_put (h : Sorted d) (key : String) (f : β → β) :
    Dict.modify key f d = Dict.put key ((get? key d).map f) d := by
  refine (h.modify key f).ext (h.put key _) fun other ↦ ?_
  rw [get?_put]
  split
  · rename_i heq
    rw [heq, get?_modify_self]
  · rename_i hne
    rw [get?_modify_of_ne hne]

theorem Sorted.modify_insert (h : Sorted d) (hget : get? key d = some value) (other : β) :
    Dict.modify key (fun _ ↦ value) (Dict.insert key other d) = d := by
  rw [(h.insert key other).modify_eq_put, get?_insert_self, Option.map_some, Dict.put,
    insert_insert, h.insert_own hget]

end RecordService.Dict
