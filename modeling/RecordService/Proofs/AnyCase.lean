import RecordService.Proofs.Patterns

namespace RecordService

namespace Text

variable {c : Char} {cs read before after : List Char}

def lowerAt (read : List Char) (c : Char) (left : List Char) : List Char :=
  if c = 'Σ' then [if meetsCased read && !meetsCased left then 'ς' else 'σ'] else lowerChar c

theorem lowerAfter_cons (read : List Char) (c : Char) (left : List Char) :
    lowerAfter read (c :: left) = lowerAt read c left ++ lowerAfter (c :: read) left := rfl

theorem exists_lowerChar (hdotted : c ≠ '\u0130') : ∃ lower, lowerChar c = [lower] := by
  rw [lowerChar, if_neg hdotted]
  split <;> exact ⟨_, rfl⟩

theorem length_lowerAt (read : List Char) (c : Char) (left : List Char) :
    (lowerAt read c left).length = [c].length + [c].count '\u0130' := by
  by_cases hsigma : c = 'Σ'
  · subst hsigma
    rfl
  by_cases hdotted : c = '\u0130'
  · subst hdotted
    rfl
  obtain ⟨lower, hlower⟩ := exists_lowerChar hdotted
  rw [lowerAt, if_neg hsigma, hlower]
  simp [hdotted]

theorem length_lowerAfter (read cs : List Char) :
    (lowerAfter read cs).length = cs.length + cs.count '\u0130' := by
  induction cs generalizing read with
  | nil => rfl
  | cons c cs ih =>
    have hsplit : c :: cs = [c] ++ cs := rfl
    rw [lowerAfter_cons, List.length_append, length_lowerAt, ih, hsplit, List.length_append,
      List.count_append]
    omega

/-- A capital sigma further on has a place of its own in the lower case. -/
theorem exists_lowerAfter_sigma (read before after : List Char) :
    ∃ low rest, low.length = before.length + before.count '\u0130' ∧
      lowerAfter read (before ++ 'Σ' :: after) =
        low ++ lowerAt (before.reverse ++ read) 'Σ' after ++ rest := by
  induction before generalizing read with
  | nil => exact ⟨[], lowerAfter ('Σ' :: read) after, rfl, rfl⟩
  | cons c before ih =>
    obtain ⟨low, rest, hlength, hlow⟩ := ih (c :: read)
    have hsplit : c :: before = [c] ++ before := rfl
    refine ⟨lowerAt read c (before ++ 'Σ' :: after) ++ low, rest, ?_, ?_⟩
    · rw [List.length_append, length_lowerAt, hlength, hsplit, List.length_append,
        List.count_append]
      omega
    · rw [List.cons_append, lowerAfter_cons, hlow, List.reverse_cons,
        List.append_assoc before.reverse]
      simp only [List.append_assoc, List.singleton_append]

section Wildcards

theorem any_lt_lower? {run : CaseRun} {code lower : Nat} (hrun : run ∈ lowerRuns)
    (h : run.lower? code = some lower) : '%'.toNat < lower := by
  have hbound : ∀ run ∈ lowerRuns, ('%'.toNat : Int) < run.first + run.shift := by decide +kernel
  have hshift := hbound run hrun
  unfold CaseRun.lower? at h
  split at h
  · rename_i hin
    simp only [Bool.and_eq_true, decide_eq_true_eq] at hin
    obtain rfl := Option.some_inj.mp h
    omega
  · cases h

theorem any_ne_ofNat {code : Nat} (h : '%'.toNat < code) : '%' ≠ Char.ofNat code := by
  intro hcode
  by_cases hvalid : code.isValidChar
  · have hto : (Char.ofNat code).toNat = code := by
      rw [Char.ofNat, dif_pos hvalid]
      rfl
    rw [← hto, ← hcode] at h
    exact Nat.lt_irrefl _ h
  · have hnull : Char.ofNat code = '\x00' := dif_neg hvalid
    rw [hnull] at hcode
    exact absurd hcode (by decide)

/-- Nothing but `%` is `%` in lower case. -/
theorem any_not_mem_lowerChar (h : c ≠ '%') : '%' ∉ lowerChar c := by
  unfold lowerChar
  split_ifs with hascii hdotted
  · have hplain : ∀ n < 128, Char.ofNat n ≠ '%' → (Char.ofNat n).toLower ≠ '%' := by decide
    have hlower := hplain c.toNat hascii
    rw [Char.ofNat_toNat] at hlower
    exact fun hmem ↦ hlower h (List.mem_singleton.mp hmem).symm
  · decide
  · intro hmem
    rw [List.mem_singleton] at hmem
    cases hfound : lowerRuns.findSome? fun run ↦ run.lower? c.toNat with
    | none =>
      rw [hfound] at hmem
      exact h hmem.symm
    | some lower =>
      obtain ⟨run, hrun, hlower⟩ := List.exists_of_findSome?_eq_some hfound
      have hlt := any_lt_lower? hrun hlower
      rw [hfound, Option.map_some, Option.getD_some] at hmem
      exact any_ne_ofNat hlt hmem

theorem any_not_mem_lowerAfter (h : '%' ∉ cs) : '%' ∉ lowerAfter read cs := by
  induction cs generalizing read with
  | nil => exact h
  | cons c cs ih =>
    rw [List.mem_cons, not_or] at h
    have hat : '%' ∉ lowerAt read c cs := by
      unfold lowerAt
      split
      · split <;> decide
      · exact any_not_mem_lowerChar (Ne.symm h.1)
    rw [lowerAfter_cons, List.mem_append, not_or]
    exact ⟨hat, ih h.2⟩

theorem meetsCased_cons (c : Char) (cs : List Char) : meetsCased (c :: cs) =
    if inRuns ignoredRuns c then meetsCased cs else inRuns casedRuns c := by
  unfold meetsCased
  rw [List.dropWhile_cons]
  by_cases hc : inRuns ignoredRuns c
  · rw [if_pos hc, if_pos hc]
  · rw [if_neg hc, if_neg hc]

theorem plain_any : inRuns ignoredRuns '%' = false ∧ inRuns casedRuns '%' = false := by
  decide +kernel

theorem plain_one : inRuns ignoredRuns '_' = false ∧ inRuns casedRuns '_' = false := by
  decide +kernel

theorem not_meetsCased_blanks (n : Nat) : ¬ meetsCased (List.replicate n '_') := by
  cases n with
  | zero => decide
  | succ n => simp [List.replicate_succ, meetsCased_cons, plain_one]

/-- The nearest characters show the cased one, whatever follows, and no wildcard is among them. -/
theorem exists_near_of_meetsCased (h : meetsCased cs) : ∃ near far, cs = near ++ far ∧
    '%' ∉ near ∧ '_' ∉ near ∧ ∀ other, meetsCased (near ++ other) := by
  induction cs with
  | nil => cases h
  | cons c cs ih =>
    rw [meetsCased_cons] at h
    have hany : '%' ≠ c := by
      rintro rfl
      simp [plain_any] at h
    have hone : '_' ≠ c := by
      rintro rfl
      simp [plain_one] at h
    split at h
    case isTrue hc =>
      obtain ⟨near, far, rfl, hany', hone', hnear⟩ := ih h
      refine ⟨c :: near, far, rfl, by simp [hany, hany'], by simp [hone, hone'], fun other ↦ ?_⟩
      rw [List.cons_append, meetsCased_cons, if_pos hc]
      exact hnear other
    case isFalse hc =>
      refine ⟨[c], cs, rfl, by simpa using hany, by simpa using hone, fun other ↦ ?_⟩
      rwa [List.singleton_append, meetsCased_cons, if_neg hc]

end Wildcards

section Settled

/-- Each character has one in lower case that is the same wherever it stands: there is no `İ`, and
no capital sigma that comes after a cased letter. -/
structure Settled (cs : List Char) : Prop where
  undotted : '\u0130' ∉ cs
  sigma : ∀ before after, cs = before ++ 'Σ' :: after → ¬ meetsCased before.reverse

def lowerOne (c : Char) : Char := (lowerAt [] c []).headD c

theorem lowerAt_eq (hdotted : c ≠ '\u0130') (hsigma : c = 'Σ' → ¬ meetsCased read)
    (left : List Char) : lowerAt read c left = [lowerOne c] := by
  by_cases hc : c = 'Σ'
  · subst hc
    have hnil : ¬ meetsCased [] := by decide
    simp [lowerAt, lowerOne, hsigma rfl, hnil]
  · obtain ⟨lower, hlower⟩ := exists_lowerChar hdotted
    simp [lowerAt, lowerOne, hc, hlower]

theorem lowerAfter_eq_map (hdotted : '\u0130' ∉ cs)
    (hsigma : ∀ before after, cs = before ++ 'Σ' :: after → ¬ meetsCased (before.reverse ++ read)) :
    lowerAfter read cs = cs.map lowerOne := by
  induction cs generalizing read with
  | nil => rfl
  | cons c cs ih =>
    rw [List.mem_cons, not_or] at hdotted
    have hat : lowerAt read c cs = [lowerOne c] := by
      refine lowerAt_eq (Ne.symm hdotted.1) ?_ cs
      rintro rfl
      exact hsigma [] cs rfl
    rw [lowerAfter_cons, hat, List.map_cons, List.singleton_append, ih hdotted.2]
    rintro before after rfl
    have hnot := hsigma (c :: before) after rfl
    rwa [List.reverse_cons, List.append_assoc] at hnot

theorem Settled.lowerChars_eq (h : Settled cs) : lowerChars cs = cs.map lowerOne := by
  refine lowerAfter_eq_map h.undotted fun before after hcs ↦ ?_
  rw [List.append_nil]
  exact h.sigma before after hcs

theorem lowerChars_blanks (n : Nat) :
    lowerChars (List.replicate n '_') = List.replicate n '_' := by
  have hplain : ∀ c, c ≠ '_' → c ∉ List.replicate n '_' :=
    fun c hc hmem ↦ hc (List.eq_of_mem_replicate hmem)
  have hsettled : Settled (List.replicate n '_') := by
    refine ⟨hplain _ (by decide), fun before after h ↦ ?_⟩
    refine absurd ?_ (hplain 'Σ' (by decide))
    rw [h]
    exact List.mem_append_right _ List.mem_cons_self
  rw [hsettled.lowerChars_eq, List.map_replicate]
  rfl

end Settled

end Text

namespace Wildcard

variable {p q pattern text : List Char} {c d : Char} {n : Nat}

theorem splits_append :
    Splits (p ++ q) text ↔ ∃ front back, text = front ++ back ∧ Splits p front ∧ Splits q back := by
  induction p generalizing text with
  | nil => simp [splits_nil]
  | cons c p ih =>
    rw [List.cons_append, splits_cons]
    constructor
    · intro ⟨run, rest, htext, hrun, hrest⟩
      obtain ⟨front, back, hrest, hfront, hback⟩ := ih.mp hrest
      refine ⟨run ++ front, back, ?_, splits_cons.mpr ⟨run, front, rfl, hrun, hfront⟩, hback⟩
      rw [← htext, hrest, List.append_assoc]
    · intro ⟨front, back, htext, hfront, hback⟩
      obtain ⟨run, rest, hrest, hrun, hp⟩ := splits_cons.mp hfront
      refine ⟨run, rest ++ back, ?_, hrun, ih.mpr ⟨rest, back, rfl, hp, hback⟩⟩
      rw [htext, ← hrest, List.append_assoc]

/-- Without `%`, pattern and text are compared place by place. -/
theorem splits_iff_forall₂ (h : '%' ∉ pattern) :
    Splits pattern text ↔ List.Forall₂ (fun c d ↦ c = '_' ∨ c = d) pattern text := by
  induction pattern generalizing text with
  | nil => rw [splits_nil, List.forall₂_nil_left_iff]
  | cons c pattern ih =>
    rw [List.mem_cons, not_or] at h
    rw [List.forall₂_cons_left_iff]
    by_cases hone : c = '_'
    · subst hone
      simp [splits_one, ih h.2, and_comm]
    · rw [splits_itself (Ne.symm h.1) hone]
      simp [hone, ih h.2, and_comm]

theorem splits_blanks : Splits (List.replicate n '_') text ↔ text.length = n := by
  rw [splits_iff_forall₂ (fun hmem ↦ absurd (List.eq_of_mem_replicate hmem) (by decide))]
  induction n generalizing text with
  | zero => simp
  | succ n ih =>
    cases text with
    | nil => simp [List.replicate_succ]
    | cons d text => simp [List.replicate_succ, ih]

/-- A pattern without wildcards matches itself only. -/
theorem eq_of_splits (hany : '%' ∉ pattern) (hone : '_' ∉ pattern) (h : Splits pattern text) :
    text = pattern := by
  rw [splits_iff_forall₂ hany] at h
  induction h with
  | nil => rfl
  | cons hfirst _ ih =>
    simp only [List.mem_cons, not_or] at hany hone
    rw [hfirst.resolve_left (Ne.symm hone.1), ih hany.2 hone.2]

/-- What a character becomes may be a wildcard, which takes what the character did. -/
theorem Splits.map {f : Char → Char} (hany : f '%' = '%') (hone : f '_' = '_')
    (h : Splits pattern text) : Splits (pattern.map f) (text.map f) := by
  induction pattern generalizing text with
  | nil =>
    rw [splits_nil] at h
    subst h
    exact splits_nil.mpr rfl
  | cons c pattern ih =>
    obtain ⟨run, rest, rfl, hrun, hrest⟩ := splits_cons.mp h
    rw [List.map_append, List.map_cons, splits_cons]
    refine ⟨run.map f, rest.map f, rfl, ?_, ih hrest⟩
    cases hrun with
    | any =>
      rw [hany]
      exact .any _
    | one d =>
      rw [hone]
      exact .one _
    | itself =>
      by_cases hc : f c = '%'
      · exact hc ▸ .any _
      by_cases hc' : f c = '_'
      · exact hc' ▸ .one _
      exact .itself hc hc'

/-- What a settled text is matched by is settled. -/
theorem Splits.settled (h : Splits pattern text) (htext : Text.Settled text) :
    Text.Settled pattern := by
  constructor
  · intro hmem
    obtain ⟨before, after, rfl⟩ := List.append_of_mem hmem
    obtain ⟨front, back, rfl, -, hback⟩ := splits_append.mp h
    obtain ⟨rest, rfl, -⟩ := (splits_itself (by decide) (by decide)).mp hback
    exact htext.undotted (List.mem_append_right _ List.mem_cons_self)
  · rintro before after rfl hcased
    obtain ⟨near, far, hbefore, hany, hone, hnear⟩ := Text.exists_near_of_meetsCased hcased
    obtain ⟨front, back, rfl, hfront, hback⟩ := splits_append.mp h
    obtain ⟨rest, rfl, -⟩ := (splits_itself (by decide) (by decide)).mp hback
    rw [List.reverse_eq_iff, List.reverse_append] at hbefore
    subst hbefore
    obtain ⟨start, stop, rfl, -, hstop⟩ := splits_append.mp hfront
    obtain rfl := eq_of_splits (by simpa using hany) (by simpa using hone) hstop
    refine htext.sigma _ rest rfl ?_
    rw [List.reverse_append, List.reverse_reverse]
    exact hnear _

theorem Splits.lower (h : Splits pattern text) (htext : Text.Settled text) :
    Splits (Text.lowerChars pattern) (Text.lowerChars text) := by
  rw [htext.lowerChars_eq, (h.settled htext).lowerChars_eq]
  exact h.map (by decide) (by decide)

section Sigmas

variable {before after before' after' : List Char}

/-- A pattern without `%` has the sigma in the place where the text has it, in lower case as well,
and so in the same form. -/
theorem sigma_form_eq (hany : '%' ∉ before' ++ 'Σ' :: after')
    (hlength : before'.length = before.length)
    (hdotted : '\u0130' ∉ before) (hdotted' : '\u0130' ∉ before')
    (h : Splits (Text.lowerChars (before' ++ 'Σ' :: after'))
      (Text.lowerChars (before ++ 'Σ' :: after))) :
    (Text.meetsCased before'.reverse && !Text.meetsCased after') =
      (Text.meetsCased before.reverse && !Text.meetsCased after) := by
  obtain ⟨low, rest, hlow, htext⟩ := Text.exists_lowerAfter_sigma [] before after
  obtain ⟨low', rest', hlow', hpattern⟩ := Text.exists_lowerAfter_sigma [] before' after'
  rw [List.count_eq_zero_of_not_mem hdotted] at hlow
  rw [List.count_eq_zero_of_not_mem hdotted'] at hlow'
  have hsame : low.length = low'.length := by omega
  rw [Text.lowerChars, Text.lowerChars, splits_iff_forall₂ (Text.any_not_mem_lowerAfter hany),
    htext, hpattern, List.append_assoc low, List.append_nil, List.append_assoc low',
    List.append_nil] at h
  have hplace := List.forall₂_drop_append _ _ _ h
  rw [hsame, List.drop_left, Text.lowerAt, Text.lowerAt, if_pos rfl, if_pos rfl] at hplace
  obtain ⟨hform, -⟩ := List.forall₂_cons.mp hplace
  revert hform
  cases Text.meetsCased before'.reverse && !Text.meetsCased after' <;>
    cases Text.meetsCased before.reverse && !Text.meetsCased after <;> decide

theorem splits_sigma (h : Splits before' before) :
    Splits (before' ++ 'Σ' :: List.replicate after.length '_') (before ++ 'Σ' :: after) := by
  refine splits_append.mpr ⟨before, 'Σ' :: after, rfl, h, ?_⟩
  exact (splits_itself (by decide) (by decide)).mpr ⟨after, rfl, splits_blanks.mpr rfl⟩

/-- If the sigma is final in lower case, a pattern of blanks around it misses it, and if it is not,
a pattern that ends its word there does. -/
theorem exists_splits_not_lower (after : List Char) (hdotted : '\u0130' ∉ before)
    (hcased : Text.meetsCased before.reverse) :
    ∃ pattern, Splits pattern (before ++ 'Σ' :: after) ∧
      ¬ Splits (Text.lowerChars pattern) (Text.lowerChars (before ++ 'Σ' :: after)) := by
  have hblank : ∀ n, '%' ∉ List.replicate n '_' ∧ '\u0130' ∉ List.replicate n '_' := by
    intro n
    simp [List.mem_replicate]
  have hafter := Text.not_meetsCased_blanks after.length
  -- Blanks are no letters. With blanks all around a sigma is not final, and with the letters just
  -- before it kept it is.
  by_cases hfinal : Text.meetsCased after
  · obtain ⟨near, far, hbefore, hany, hone, hnear⟩ := Text.exists_near_of_meetsCased hcased
    rw [List.reverse_eq_iff, List.reverse_append] at hbefore
    subst hbefore
    rw [List.mem_append, not_or] at hdotted
    have hstart : Splits (List.replicate far.length '_' ++ near.reverse)
        (far.reverse ++ near.reverse) := by
      refine splits_append.mpr ⟨far.reverse, near.reverse, rfl, splits_blanks.mpr (by simp), ?_⟩
      exact (splits_iff_forall₂ (by simpa using hany)).mpr
        (List.forall₂_same.mpr fun _ _ ↦ .inr rfl)
    refine ⟨_, splits_sigma hstart, fun h ↦ ?_⟩
    have hform := sigma_form_eq (by simp [hblank, hany]) (by simp) (by simp [hdotted])
      (by simp [hblank, hdotted]) h
    simp [hfinal, hafter, hnear] at hform
  · refine ⟨_, splits_sigma (splits_blanks.mpr rfl), fun h ↦ ?_⟩
    have hform := sigma_form_eq (by simp [hblank]) (by simp) hdotted (hblank _).2 h
    simp [hfinal, hcased, Text.not_meetsCased_blanks] at hform

end Sigmas

section Texts

variable {text pattern : String}

theorem matches_same_iff : Wildcard.matches false pattern text ↔
    Splits pattern.toList text.toList := matchesChars_iff

theorem matches_lower_iff : Wildcard.matches true pattern text ↔
    Splits (Text.lowerChars pattern.toList) (Text.lowerChars text.toList) := matchesChars_iff

theorem matches_blanks_iff : Wildcard.matches true (String.ofList (List.replicate n '_')) text ↔
    text.toList.length + text.toList.count '\u0130' = n := by
  rw [matches_lower_iff, String.toList_ofList, Text.lowerChars_blanks, splits_blanks,
    Text.lowerChars, Text.length_lowerAfter]

theorem settled_of_widens
    (h : ∀ pattern, Wildcard.matches false pattern text → Wildcard.matches true pattern text) :
    Text.Settled text.toList := by
  have hlower : ∀ pattern, Splits pattern text.toList →
      Splits (Text.lowerChars pattern) (Text.lowerChars text.toList) := by
    intro pattern hpattern
    have hwide := h (String.ofList pattern)
    rw [matches_same_iff, matches_lower_iff, String.toList_ofList] at hwide
    exact hwide hpattern
  have hdotted : '\u0130' ∉ text.toList := by
    have hlength := hlower _ (splits_blanks.mpr rfl)
    rw [Text.lowerChars_blanks, splits_blanks, Text.lowerChars, Text.length_lowerAfter] at hlength
    rw [← List.count_eq_zero]
    omega
  refine ⟨hdotted, fun before after htext hcased ↦ ?_⟩
  rw [htext] at hlower hdotted
  have hbefore : '\u0130' ∉ before := fun hmem ↦ hdotted (List.mem_append_left _ hmem)
  obtain ⟨pattern, hsplits, hnot⟩ := exists_splits_not_lower after hbefore hcased
  exact hnot (hlower pattern hsplits)

/-- For settled texts, and no others, every pattern that matches does so without regard to case.
A `_` stands for one character of the text as long as there is no `İ` in it. -/
theorem widens_iff_settled (text : String) :
    ((∀ pattern, Wildcard.matches false pattern text → Wildcard.matches true pattern text) ↔
      Text.Settled text.toList) ∧
    ((∀ n, Wildcard.matches true (String.ofList (List.replicate n '_')) text ↔
      text.toList.length = n) ↔ '\u0130' ∉ text.toList) := by
  constructor
  · refine ⟨settled_of_widens, fun hsettled pattern h ↦ ?_⟩
    exact matches_lower_iff.mpr ((matches_same_iff.mp h).lower hsettled)
  · simp only [matches_blanks_iff]
    rw [← List.count_eq_zero]
    constructor
    · intro h
      have hlength := (h text.toList.length).mpr rfl
      omega
    · intro h n
      omega

end Texts

/-- A single `İ` is matched by `_`, but not without regard to case. -/
theorem dotted_not_widened :
    ¬ (Wildcard.matches false "_" "\u0130" → Wildcard.matches true "_" "\u0130") := by
  decide

end Wildcard

end RecordService
