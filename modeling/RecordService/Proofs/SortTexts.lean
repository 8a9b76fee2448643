import Mathlib.Data.Bool.AllAny
import Mathlib.Data.List.Forall2
import RecordService.Proofs.NormalForms
import RecordService.Proofs.PointerText
import RecordService.Sorting

namespace RecordService

namespace Text

variable {cs w gap rest : List Char}

theorem Trims.trim_whole {left : List Char} (h : Trims cs left) : trim cs = left := by
  obtain ⟨before, after, rfl, hbefore, hafter⟩ := h.cut
  cases left with
  | nil =>
    rw [trim_eq_nil_iff]
    intro c hc
    rw [List.append_nil, List.mem_append] at hc
    exact hc.elim (hbefore c) (hafter c)
  | cons c left =>
    have hlast : (c :: left).rdropWhile isBlank = c :: left :=
      List.rdropWhile_eq_self_iff.mpr fun hne ↦ h.last _ (List.getLast?_eq_some_getLast hne)
    rw [List.append_assoc, trim_eq_rdropWhile, List.dropWhile_append_of_pos hbefore,
      List.cons_append, List.dropWhile_cons_of_neg (h.first c rfl), ← List.cons_append,
      List.rdropWhile, List.reverse_append,
      List.dropWhile_append_of_pos fun c hc ↦ hafter c (List.mem_reverse.mp hc)]
    exact hlast

theorem words_blanks (h : ∀ c ∈ gap, isBlank c) (cs : List Char) :
    words (gap ++ cs) = words cs := by
  induction gap with
  | nil => rfl
  | cons c gap ih =>
    obtain ⟨hc, hgap⟩ := List.forall_mem_cons.mp h
    rw [List.cons_append, words.eq_def]
    exact (if_pos hc).trans (ih hgap)

/-- A run without blanks is a word if it ends the text or a blank follows. -/
theorem words_run (hne : w ≠ []) (hw : ∀ c ∈ w, ¬ isBlank c) (hrest : ∀ c ∈ rest.head?, isBlank c) :
    words (w ++ rest) = w :: words rest := by
  induction w with
  | nil => exact absurd rfl hne
  | cons c w ih =>
    obtain ⟨hc, hw⟩ := List.forall_mem_cons.mp hw
    cases w with
    | nil =>
      cases rest with
      | nil => simp [words, hc]
      | cons d rest =>
        have hd : isBlank d := hrest d rfl
        simp [words, hc, hd]
    | cons d w =>
      have hd : ¬ isBlank d := hw d List.mem_cons_self
      have hrun := ih (List.cons_ne_nil d w) hw
      rw [List.cons_append] at hrun ⊢
      rw [List.cons_append, words.eq_def]
      simp [hc, hd, hrun]

theorem words_whole (hne : w ≠ []) (hw : ∀ c ∈ w, ¬ isBlank c) : words w = [w] := by
  have hrun : words (w ++ []) = [w] := words_run hne hw nofun
  rwa [List.append_nil] at hrun

end Text

/-- A pointer that is read back from its text, also in a list of texts with commas in between. -/
structure Pointer.Listable (p : Pointer) : Prop where
  tokens : ∀ t ∈ p.tokens, t ≠ ""
  comma : ',' ∉ p.text.toList
  blanks : ∀ c ∈ p.text.toList, ¬ Text.isBlank c

namespace SortKey

variable {key : SortKey} {cs : List Char}

def directionWord (descending : Bool) : List Char :=
  if descending then "desc".toList else "asc".toList

/-- The ways to spell a sort key: the field alone or behind a minus, or before a direction. -/
inductive Spells : SortKey → List Char → Prop
  | ascending (field : Pointer) : Spells ⟨field, false⟩ field.text.toList
  | descending (field : Pointer) : Spells ⟨field, true⟩ ('-' :: field.text.toList)
  | directed (field : Pointer) (descending : Bool) {gap : List Char} : gap ≠ [] →
      (∀ c ∈ gap, Text.isBlank c) →
      Spells ⟨field, descending⟩ (field.text.toList ++ (gap ++ directionWord descending))

theorem direction?_directionWord (descending : Bool) :
    direction? (directionWord descending) = some descending := by
  cases descending <;> decide

theorem directionWord_spec (descending : Bool) : directionWord descending ≠ [] ∧
    ∀ c ∈ directionWord descending, ¬ Text.isBlank c ∧ c ≠ ',' := by
  rw [← List.all_iff_forall_prop]
  cases descending <;> decide

theorem sign_text (field : Pointer) : sign field.text.toList = (false, field.text.toList) := by
  obtain ⟨cs, hcs⟩ := field.exists_text_eq
  rw [hcs]
  rfl

theorem text_ne_nil (field : Pointer) : field.text.toList ≠ [] := by
  obtain ⟨cs, hcs⟩ := field.exists_text_eq
  rw [hcs]
  exact List.cons_ne_nil _ _

section Words

variable {field : Pointer} {descending : Bool} {column : List Char} (hfield : field.Listable)
include hfield

theorem ofText_text : Pointer.ofText (String.ofList field.text.toList) = field := by
  rw [String.ofList_toList, Pointer.ofText_text hfield.tokens]

theorem ofWords?_column (hsign : sign column = (descending, field.text.toList)) :
    ofWords? [column] = some ⟨field, descending⟩ := by
  have hne : ¬ field.text.toList.isEmpty := mt List.isEmpty_iff.mp (text_ne_nil field)
  rw [ofWords?, hsign]
  dsimp only
  rw [if_neg hne, ofText_text hfield]

theorem ofWords?_directed (descending : Bool) :
    ofWords? [field.text.toList, directionWord descending] = some ⟨field, descending⟩ := by
  have hne : ¬ field.text.toList.isEmpty := mt List.isEmpty_iff.mp (text_ne_nil field)
  rw [ofWords?, sign_text]
  dsimp only
  rw [if_neg hne, direction?_directionWord, ofText_text hfield, Option.map_some]

end Words

variable (hkey : key.field.Listable) (h : Spells key cs)
include hkey h

theorem Spells.ofWords?_words : ofWords? (Text.words cs) = some key := by
  have hne := text_ne_nil key.field
  cases h with
  | ascending field =>
    rw [Text.words_whole hne hkey.blanks]
    exact ofWords?_column hkey (sign_text field)
  | descending field =>
    have hblanks : ∀ c ∈ '-' :: field.text.toList, ¬ Text.isBlank c :=
      List.forall_mem_cons.mpr ⟨by decide, hkey.blanks⟩
    rw [Text.words_whole (List.cons_ne_nil _ _) hblanks]
    exact ofWords?_column hkey rfl
  | directed field descending hgap hblank =>
    obtain ⟨hword, hwords⟩ := directionWord_spec descending
    obtain ⟨b, gap, rfl⟩ := List.exists_cons_of_ne_nil hgap
    have hfirst : ∀ c ∈ ((b :: gap) ++ directionWord descending).head?, Text.isBlank c := by
      intro c hc
      obtain rfl := Option.some_inj.mp hc
      exact hblank b List.mem_cons_self
    rw [Text.words_run hne hkey.blanks hfirst, Text.words_blanks hblank,
      Text.words_whole hword fun c hc ↦ (hwords c hc).1]
    exact ofWords?_directed hkey descending

theorem Spells.not_blank_ends : (∀ c ∈ cs.head?, ¬ Text.isBlank c) ∧
    ∀ c ∈ cs.getLast?, ¬ Text.isBlank c := by
  have hne := text_ne_nil key.field
  cases h with
  | ascending field =>
    exact ⟨fun c hc ↦ hkey.blanks c (List.mem_of_head? hc),
      fun c hc ↦ hkey.blanks c (List.mem_of_getLast? hc)⟩
  | descending field =>
    have hblanks : ∀ c ∈ '-' :: field.text.toList, ¬ Text.isBlank c :=
      List.forall_mem_cons.mpr ⟨by decide, hkey.blanks⟩
    exact ⟨fun c hc ↦ hblanks c (List.mem_of_head? hc),
      fun c hc ↦ hblanks c (List.mem_of_getLast? hc)⟩
  | directed field descending hgap hblank =>
    obtain ⟨hword, hwords⟩ := directionWord_spec descending
    constructor
    · intro c hc
      rw [List.head?_append_of_ne_nil _ hne] at hc
      exact hkey.blanks c (List.mem_of_head? hc)
    · intro c hc
      rw [← List.append_assoc, List.getLast?_append_of_ne_nil _ hword] at hc
      exact (hwords c (List.mem_of_getLast? hc)).1

theorem Spells.comma_not_mem : ',' ∉ cs := by
  intro hcomma
  cases h with
  | ascending field => exact hkey.comma hcomma
  | descending field =>
    exact hkey.comma (List.mem_of_ne_of_mem (by decide) hcomma)
  | directed field descending hgap hblank =>
    rw [List.mem_append, List.mem_append] at hcomma
    obtain hfield | hgap | hword := hcomma
    · exact hkey.comma hfield
    · exact absurd (hblank _ hgap) (by decide)
    · exact ((directionWord_spec descending).2 _ hword).2 rfl

end SortKey

namespace Sorting

variable {keys : List SortKey} {places : List (List Char)}

def Holds (key : SortKey) (place : List Char) : Prop :=
  ∃ before cs after, place = before ++ cs ++ after ∧ key.Spells cs ∧
    (∀ c ∈ before, Text.isBlank c) ∧ ∀ c ∈ after, Text.isBlank c

section Places

variable {key : SortKey} {place : List Char} (hkey : key.field.Listable) (h : Holds key place)
include hkey h

theorem Holds.comma_not_mem : ',' ∉ place := by
  obtain ⟨before, cs, after, rfl, hspells, hbefore, hafter⟩ := h
  intro hcomma
  rw [List.mem_append, List.mem_append] at hcomma
  obtain (hleft | hmiddle) | hright := hcomma
  · exact absurd (hbefore _ hleft) (by decide)
  · exact hspells.comma_not_mem hkey hmiddle
  · exact absurd (hafter _ hright) (by decide)

theorem Holds.read : Text.trim place ≠ [] ∧ SortKey.ofChars (Text.trim place) = .ok key := by
  obtain ⟨before, cs, after, rfl, hspells, hbefore, hafter⟩ := h
  obtain ⟨hfirst, hlast⟩ := hspells.not_blank_ends hkey
  have htrims : Text.Trims (before ++ cs ++ after) cs :=
    ⟨⟨before, after, rfl, hbefore, hafter⟩, hfirst, hlast⟩
  have hwords := hspells.ofWords?_words hkey
  rw [htrims.trim_whole]
  constructor
  · intro hnil
    rw [hnil] at hwords
    cases hwords
  · rw [SortKey.ofChars, hwords]

end Places

def placesOf (cs : List Char) : List (List Char) :=
  ((Text.split ',' cs).map Text.trim).filter (· ≠ [])

theorem ofText_eq (text : String) :
    ofText text = (placesOf text.toList).mapM SortKey.ofChars := rfl

theorem placesOf_append (cs ds : List Char) :
    placesOf (cs ++ ',' :: ds) = placesOf cs ++ placesOf ds := by
  rw [placesOf, Text.split_append, List.map_append, List.filter_append, ← placesOf, ← placesOf]

theorem placesOf_join (texts : List (List Char)) :
    placesOf (Text.join ',' texts) = texts.flatMap placesOf := by
  induction texts with
  | nil => rfl
  | cons cs texts ih =>
    cases texts with
    | nil => rw [Text.join, List.flatMap_singleton]
    | cons ds texts =>
      have hjoin : Text.join ',' (cs :: ds :: texts) =
          cs ++ ',' :: Text.join ',' (ds :: texts) := rfl
      rw [hjoin, placesOf_append, ih]
      rfl

theorem placesOf_of_not_mem {cs : List Char} (hcomma : ',' ∉ cs) (hne : Text.trim cs ≠ []) :
    placesOf cs = [Text.trim cs] := by
  rw [placesOf, Text.split_of_not_mem hcomma]
  simp [hne]

theorem mapM_placesOf_join (hkeys : ∀ key ∈ keys, key.field.Listable)
    (h : List.Forall₂ Holds keys places) :
    (placesOf (Text.join ',' places)).mapM SortKey.ofChars = .ok keys := by
  rw [placesOf_join]
  induction h with
  | nil => rfl
  | @cons key place keys places hplace _ ih =>
    obtain ⟨hkey, hkeys⟩ := List.forall_mem_cons.mp hkeys
    obtain ⟨hne, hread⟩ := hplace.read hkey
    rw [List.flatMap_cons, placesOf_of_not_mem (hplace.comma_not_mem hkey) hne,
      List.singleton_append, List.mapM_cons, hread, ok_bind, ih hkeys, ok_bind]
    rfl

theorem ofItems_str (texts : List String) :
    ofItems (texts.map .str) =
      ((texts.map String.toList).flatMap placesOf).mapM SortKey.ofChars := by
  induction texts with
  | nil => rfl
  | cons s texts ih =>
    rw [List.map_cons, List.map_cons, List.flatMap_cons, List.mapM_append, ofItems, ih, ofText_eq]
    rfl

/-- Keys that are spelt in one text are read from it, and it makes no difference whether texts come
as a list or with commas in between. -/
theorem spelt_keys_read :
    (∀ (keys : List SortKey) (places : List (List Char)),
      (∀ key ∈ keys, key.field.Listable) → List.Forall₂ Holds keys places →
        ofText (String.ofList (Text.join ',' places)) = .ok keys) ∧
      ∀ texts : List String, ofJson (.arr (texts.map .str)) =
        ofText (String.ofList (Text.join ',' (texts.map String.toList))) := by
  constructor
  · intro keys places hkeys hplaces
    rw [ofText_eq, String.toList_ofList]
    exact mapM_placesOf_join hkeys hplaces
  · intro texts
    rw [ofText_eq, String.toList_ofList, placesOf_join]
    exact ofItems_str texts

theorem escaped_root_and_tilde_read :
    let keys : List SortKey := [⟨⟨["a/b", "-c"]⟩, true⟩, ⟨.root, false⟩, ⟨⟨["~1"]⟩, true⟩]
    let places := [" -/a~1b/-c".toList, "/".toList, "/~01\u2003desc\t".toList]
    (∀ key ∈ keys, key.field.Listable) ∧ List.Forall₂ Holds keys places ∧
      ofText (String.ofList (Text.join ',' places)) = .ok keys := by
  intro keys places
  have hkeys : ∀ key ∈ keys, key.field.Listable := by
    simp only [keys, List.forall_mem_cons]
    exact ⟨⟨by decide, by decide, List.all_iff_forall_prop.mp (by decide)⟩,
      ⟨by decide, by decide, List.all_iff_forall_prop.mp (by decide)⟩,
      ⟨by decide, by decide, List.all_iff_forall_prop.mp (by decide)⟩, nofun⟩
  have htilde : SortKey.Spells ⟨⟨["~1"]⟩, true⟩ "/~01\u2003desc".toList :=
    @SortKey.Spells.directed ⟨["~1"]⟩ true ['\u2003'] nofun (List.forall_mem_singleton.mpr rfl)
  have hplaces : List.Forall₂ Holds keys places :=
    .cons ⟨[' '], _, [], rfl, .descending ⟨["a/b", "-c"]⟩, List.forall_mem_singleton.mpr rfl,
        nofun⟩
      (.cons ⟨[], _, [], rfl, .ascending .root, nofun, nofun⟩
        (.cons ⟨[], _, ['\t'], rfl, htilde, nofun, List.forall_mem_singleton.mpr rfl⟩ .nil))
  exact ⟨hkeys, hplaces, spelt_keys_read.1 keys places hkeys hplaces⟩

end Sorting

end RecordService
