import RecordService.Request

namespace RecordService

namespace Text

variable {separator : Char}

theorem split_of_not_mem {cs : List Char} (h : separator ∉ cs) : split separator cs = [cs] := by
  induction cs with
  | nil => rfl
  | cons c cs ih =>
    obtain ⟨hc, hcs⟩ := List.ne_and_not_mem_of_not_mem_cons h
    simp only [split, ih hcs, if_neg (Ne.symm hc)]

theorem split_append (cs ds : List Char) :
    split separator (cs ++ separator :: ds) = split separator cs ++ split separator ds := by
  induction cs with
  | nil => simp [split]
  | cons c cs ih =>
    rw [List.cons_append, split, split, ih]
    by_cases hc : c = separator
    · rw [if_pos hc, if_pos hc, List.cons_append]
    · rw [if_neg hc, if_neg hc]
      cases hs : split separator cs with
      | nil => exact absurd hs (split_ne_nil separator cs)
      | cons p ps => rfl

theorem split_append_cons {p : List Char} (h : separator ∉ p) (cs : List Char) :
    split separator (p ++ separator :: cs) = p :: split separator cs := by
  rw [split_append, split_of_not_mem h, List.singleton_append]

/-- Pieces without the separator are found again in the text they are joined to. -/
theorem split_join {ps : List (List Char)} (hne : ps ≠ []) (h : ∀ p ∈ ps, separator ∉ p) :
    split separator (join separator ps) = ps := by
  induction ps with
  | nil => exact absurd rfl hne
  | cons p ps ih =>
    have hp : separator ∉ p := h p List.mem_cons_self
    cases ps with
    | nil => exact split_of_not_mem hp
    | cons q qs =>
      have hrest := ih (List.cons_ne_nil q qs) fun r hr ↦ h r (List.mem_cons_of_mem p hr)
      rw [join, split_append_cons hp, hrest]
      exact List.cons_ne_nil q qs

theorem not_mem_of_mem_split {p cs : List Char} (h : p ∈ split separator cs) : separator ∉ p := by
  induction cs generalizing p with
  | nil => simp_all [split]
  | cons c cs ih =>
    simp only [split] at h
    split at h
    · rcases List.mem_cons.mp h with rfl | h
      · exact List.not_mem_nil
      · exact ih h
    · rename_i hc
      cases hs : split separator cs with
      | nil => exact absurd hs (split_ne_nil separator cs)
      | cons q qs =>
        rw [hs] at h ih
        rcases List.mem_cons.mp h with rfl | h
        · exact List.not_mem_cons_of_ne_of_not_mem (Ne.symm hc) (ih List.mem_cons_self)
        · exact ih (List.mem_cons_of_mem q h)

end Text

def PlainSegment (s : String) : Prop := s ≠ "" ∧ '/' ∉ s.toList

instance : DecidablePred PlainSegment := fun s ↦ inferInstanceAs (Decidable (s ≠ "" ∧ _))

namespace Path

/-- Every segment is plain; reading a text makes no other paths. -/
def Clean (p : Path) : Prop := ∀ s ∈ p.segments, PlainSegment s

instance : DecidablePred Clean := fun p ↦ inferInstanceAs (Decidable (∀ s ∈ p.segments, _))

@[simp] theorem segments_append (p q : Path) : (p ++ q).segments = p.segments ++ q.segments := rfl

theorem segments_injective {p q : Path} (h : p.segments = q.segments) : p = q := by
  cases p; cases q; exact congrArg Path.mk h

theorem append_assoc (p q r : Path) : p ++ q ++ r = p ++ (q ++ r) :=
  segments_injective (List.append_assoc ..)

theorem append_left_cancel {p q r : Path} (h : p ++ q = p ++ r) : q = r :=
  segments_injective (List.append_cancel_left (congrArg Path.segments h))

theorem append_single_inj {p q : Path} {s t : String} :
    p ++ ⟨[s]⟩ = q ++ ⟨[t]⟩ ↔ p = q ∧ s = t := by
  constructor
  · intro h
    obtain ⟨hp, hs⟩ := List.append_inj' (congrArg Path.segments h) rfl
    exact ⟨segments_injective hp, List.singleton_inj.mp hs⟩
  · rintro ⟨rfl, rfl⟩
    rfl

theorem startsWith_iff {p q : Path} : p.startsWith q ↔ ∃ r, p = q ++ r := by
  constructor
  · intro h
    obtain ⟨segments, hs⟩ := List.isPrefixOf_iff_prefix.mp h
    exact ⟨⟨segments⟩, segments_injective hs.symm⟩
  · rintro ⟨r, rfl⟩
    exact List.isPrefixOf_iff_prefix.mpr ⟨r.segments, rfl⟩

theorem startsWith_self (p : Path) : p.startsWith p :=
  startsWith_iff.mpr ⟨.empty, segments_injective (List.append_nil _).symm⟩

theorem length_le_of_startsWith {p q : Path} (h : p.startsWith q) :
    q.segments.length ≤ p.segments.length := by
  obtain ⟨r, rfl⟩ := startsWith_iff.mp h
  simp

/-- A path starts with one path of each length. -/
theorem eq_of_startsWith {p q q' : Path} (h : p.startsWith q) (h' : p.startsWith q')
    (hlength : q.segments.length = q'.segments.length) : q = q' := by
  obtain ⟨r, rfl⟩ := startsWith_iff.mp h
  obtain ⟨r', heq⟩ := startsWith_iff.mp h'
  exact segments_injective (List.append_inj_left (congrArg segments heq) hlength)

theorem Clean.left {p q : Path} (h : (p ++ q).Clean) : p.Clean :=
  fun s hs ↦ h s (List.mem_append_left _ hs)

theorem Clean.right {p q : Path} (h : (p ++ q).Clean) : q.Clean :=
  fun s hs ↦ h s (List.mem_append_right _ hs)

theorem Clean.plain {p : Path} {s : String} (h : (p ++ ⟨[s]⟩).Clean) : PlainSegment s :=
  h.right s List.mem_cons_self

theorem Clean.append {p q : Path} (hp : p.Clean) (hq : q.Clean) : (p ++ q).Clean := by
  intro s hs
  rcases List.mem_append.mp hs with hs | hs
  · exact hp s hs
  · exact hq s hs

theorem Clean.single {p : Path} {s : String} (hp : p.Clean) (hs : PlainSegment s) :
    (p ++ ⟨[s]⟩).Clean :=
  hp.append fun _ hpart ↦ List.mem_singleton.mp hpart ▸ hs

theorem clean_ofText (text : String) : (ofText text).Clean := by
  intro s hs
  obtain ⟨hmem, hne⟩ := List.mem_filter.mp hs
  obtain ⟨cs, hcs, rfl⟩ := List.mem_map.mp hmem
  refine ⟨of_decide_eq_true hne, ?_⟩
  rw [String.toList_ofList]
  exact Text.not_mem_of_mem_split hcs

theorem ofText_text {p : Path} (h : p.Clean) : ofText p.text = p := by
  cases hp : p.segments with
  | nil => exact segments_injective (by rw [hp, text, hp]; rfl)
  | cons s ss =>
    apply segments_injective
    have hsep : ∀ cs ∈ p.segments.map String.toList, '/' ∉ cs := by
      intro cs hcs
      obtain ⟨t, ht, rfl⟩ := List.mem_map.mp hcs
      exact (h t ht).2
    have hsplit := Text.split_join (by simp [hp]) hsep
    have hid : String.ofList ∘ String.toList = id := funext fun t ↦ String.ofList_toList
    simp only [ofText, ofSegments, text, String.toList_ofList, hsplit, List.map_map, hid,
      List.map_id]
    exact List.filter_eq_self.mpr fun t ht ↦ decide_eq_true (h t ht).1

theorem text_inj {p q : Path} (hp : p.Clean) (hq : q.Clean) : p.text = q.text ↔ p = q := by
  constructor
  · intro h
    rw [← ofText_text hp, h, ofText_text hq]
  · exact congrArg text

theorem ofText_plain {s : String} (h : PlainSegment s) : ofText s = ⟨[s]⟩ := by
  have hs := Text.split_of_not_mem h.2
  simp [ofText, ofSegments, hs, h.1, String.ofList_toList]

theorem child_plain {s : String} (h : PlainSegment s) (p : Path) : p.child s = p ++ ⟨[s]⟩ := by
  rw [child, ofText_plain h]

theorem leaf?_single (p : Path) (s : String) : (p ++ ⟨[s]⟩).leaf? = some s := by simp [leaf?]

theorem splitInstance?_eq_some {p q : Path} {s : String} :
    p.splitInstance? = some (q, s) ↔ p = q ++ ⟨[s]⟩ := by
  constructor
  · intro h
    rcases List.eq_nil_or_concat p.segments with hp | ⟨init, last, hp⟩
    · simp [splitInstance?, parent?, isEmpty, hp] at h
    · simp [splitInstance?, parent?, leaf?, isEmpty, hp] at h
      obtain ⟨rfl, rfl⟩ := h
      exact segments_injective (hp.trans (List.concat_eq_append ..))
  · rintro rfl
    simp [splitInstance?, parent?, leaf?, isEmpty]

theorem instanceParts_eq_ok {p q : Path} {s : String} :
    p.instanceParts = .ok (q, s) ↔ p = q ++ ⟨[s]⟩ := by
  rw [← splitInstance?_eq_some, instanceParts]
  cases p.splitInstance? <;> simp

theorem instanceParts_eq_error {p : Path} {fault : Fault} (h : p.instanceParts = .error fault) :
    fault = expectedInstance p := by
  unfold instanceParts at h
  split at h
  · cases h
  · exact (Except.error.inj h).symm

theorem typePath_single (p : Path) (s : String) : (p ++ ⟨[s]⟩).parent?.getD .empty = p := by
  simp [parent?, isEmpty]

end Path

end RecordService
