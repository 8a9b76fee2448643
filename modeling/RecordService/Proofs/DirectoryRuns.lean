import Mathlib.Data.List.Basic
import Mathlib.Data.List.Infix
import RecordService.Mapping.Formats
import RecordService.Proofs.Address

namespace RecordService

section Names

variable {separator : Char} {cs : List Char} {base ending : String}

theorem Text.cut_append (h : separator ∉ cs) (ds : List Char) :
    cut separator (cs ++ separator :: ds) = some (cs, ds) := by
  induction cs with
  | nil => rw [List.nil_append, cut, if_pos rfl]
  | cons c cs ih =>
    obtain ⟨hc, hcs⟩ := List.ne_and_not_mem_of_not_mem_cons h
    rw [List.cons_append, cut, if_neg hc.symm, ih hcs]
    rfl

/-- An ending is one only if the last part of the name is longer. -/
theorem extension?_append (hdot : '.' ∉ ending.toList) (hslash : '/' ∉ ending.toList) :
    extension? (base ++ "." ++ ending) =
      if base.toList.getLast? ∈ [none, some '/'] then none else some ending := by
  have hname : (base ++ "." ++ ending).toList.reverse =
      ending.toList.reverse ++ '.' :: base.toList.reverse := by
    simp
  have hpart : (ending.toList.reverse ++ '.' :: base.toList.reverse).takeWhile (· ≠ '/') =
      ending.toList.reverse ++ '.' :: base.toList.reverse.takeWhile (· ≠ '/') := by
    rw [List.takeWhile_append_of_pos]
    · simp
    · intro d hd
      exact decide_eq_true fun heq ↦ hslash (heq ▸ List.mem_reverse.mp hd)
  have hcut := Text.cut_append (mt List.mem_reverse.mp hdot)
    (base.toList.reverse.takeWhile (· ≠ '/'))
  rw [extension?, hname, hpart, ← List.head?_reverse]
  simp only [hcut]
  cases base.toList.reverse with
  | nil => rfl
  | cons c cs =>
    by_cases hc : c = '/'
    · simp [hc]
    · simp [hc]

end Names

namespace Directory

variable {d : Directory} {name : String}

theorem read_of_isFile (h : d.isFile name) : (∃ text, d.read name = .ok text) ∨
    name ∈ d.binaries ∧ d.read name = .error "stream did not contain valid UTF-8" := by
  simp only [isFile, Bool.and_eq_true, Bool.or_eq_true, List.contains_iff_mem] at h
  obtain ⟨hpresent, hcontains⟩ := h
  cases htext : Dict.get? name d.files with
  | some text => exact .inl ⟨text, by simp [read, hpresent, htext]⟩
  | none =>
    have hbinary : name ∈ d.binaries := hcontains.resolve_left (by simp [Dict.contains, htext])
    exact .inr ⟨hbinary, by simp [read, hpresent, htext, hbinary]⟩

end Directory

namespace Bootstrap

variable {limits : Limits} {d : Directory} {l : Loader} {repoType name text : String}

def documentNames (repoType : String) : List String :=
  let base := "repo." ++ Text.lowercase repoType
  [base ++ ".json", base ++ ".yaml", base ++ ".yml", "service." ++ base ++ ".json",
    "service." ++ base ++ ".yaml", "service." ++ base ++ ".yml"]

theorem candidates_eq (repoType : String) : candidates repoType = documentNames repoType := by
  simp [candidates, documentNames, endings, stem, String.append_assoc]

section Finding

theorem fst_locate (d : Directory) (repoType : String) (l : Loader) :
    (l.locate d repoType).1 = (documentNames repoType).find? d.isFile := by
  rw [Loader.locate, find?, candidates_eq]
  cases (documentNames repoType).find? d.isFile <;> rfl

theorem fst_load (formats : Formats) (d : Directory) (repoType : String) (l : Loader) :
    (l.load formats d repoType).1 = match (l.locate d repoType).1 with
      | none => .ok none
      | some name => (documentAt formats d name).map some := by
  rw [Loader.load]
  cases l.locate d repoType with
  | mk found l => cases found <;> rfl

/-- The document that a text holds, in JSON if the name ends so and otherwise in YAML. -/
def readAs (limits : Limits) (name text : String) : Except MappingError MappingDocument :=
  if ".json".toList <:+ name.toList then MappingDocument.ofJsonText limits text
  else MappingDocument.ofYamlText limits text

/-- The last part of a name for this type is an ending and nothing else. -/
def Bare (repoType : String) : Prop := (Text.lowercase repoType).toList.getLast? = some '/'

instance (repoType : String) : Decidable (Bare repoType) :=
  inferInstanceAs (Decidable (_ = _))

theorem getLast?_stem (front repoType : String) :
    (front ++ stem repoType).toList.getLast? ∈ [none, some '/'] ↔ Bare repoType := by
  rw [Bare, stem, String.toList_append, String.toList_append, List.getLast?_append,
    List.getLast?_append]
  cases (Text.lowercase repoType).toList.getLast? with
  | none => simp
  | some c => simp

theorem mem_documentNames (h : name ∈ documentNames repoType) :
    ∃ front ending, ending ∈ endings ∧ name = front ++ stem repoType ++ "." ++ ending := by
  rw [← candidates_eq, candidates] at h
  obtain ⟨base, hbase, h⟩ := List.mem_flatMap.mp h
  obtain ⟨ending, hending, rfl⟩ := List.mem_map.mp h
  simp only [List.mem_cons, List.not_mem_nil, or_false] at hbase
  rcases hbase with rfl | rfl
  · exact ⟨"", ending, hending, by rw [String.empty_append]⟩
  · exact ⟨"service.", ending, hending, rfl⟩

theorem endings_plain : ∀ ending ∈ endings, '.' ∉ ending.toList ∧ '/' ∉ ending.toList := by
  decide

theorem readAs_json (base : String) :
    readAs limits (base ++ "." ++ "json") = MappingDocument.ofJsonText limits := by
  funext text
  exact if_pos ⟨base.toList, by simp⟩

theorem readAs_other {ending : String} (h : ending.toList.getLast? = some 'l') (base : String) :
    readAs limits (base ++ "." ++ ending) = MappingDocument.ofYamlText limits := by
  funext text
  refine if_neg ?_
  intro hjson
  obtain ⟨cs, hcs⟩ := hjson
  have hlast := congrArg List.getLast? hcs
  rw [List.getLast?_append, String.toList_append, List.getLast?_append, h] at hlast
  simp at hlast

theorem format_eq (base : String) {ending : String} (h : ending ∈ endings) :
    Dict.get? ending (formats limits) = some (readAs limits (base ++ "." ++ ending)) := by
  simp only [endings, List.mem_cons, List.not_mem_nil, or_false] at h
  simp only [formats, Dict.ofList, List.foldl_cons, List.foldl_nil]
  rcases h with rfl | rfl | rfl
  · rw [readAs_json, Dict.get?_insert_of_ne (by decide), Dict.get?_insert_of_ne (by decide),
      Dict.get?_insert_self]
  · rw [readAs_other (by decide), Dict.get?_insert_of_ne (by decide), Dict.get?_insert_self]
  · rw [readAs_other (by decide), Dict.get?_insert_self]

theorem documentAt_eq (hname : name ∈ documentNames repoType) (htext : d.read name = .ok text) :
    documentAt (formats limits) d name =
      if Bare repoType then .error (.unsupportedFormat (d.pathOf name))
      else readAs limits name text := by
  obtain ⟨front, ending, hending, rfl⟩ := mem_documentNames hname
  obtain ⟨hdot, hslash⟩ := endings_plain ending hending
  rw [documentAt, htext]
  simp only [extension?_append hdot hslash, getLast?_stem]
  by_cases hbare : Bare repoType
  · simp only [if_pos hbare, Option.bind_none]
  · simp only [if_neg hbare, Option.bind_some, format_eq (front ++ stem repoType) hending]

end Finding

section Runs

inductive Step where
  | edit (change : Directory → Directory)
  | locate (repoType : String)
  | load (repoType : String)
  | reset

structure State where
  directory : Directory
  loader : Loader := {}

def State.after (formats : Formats) (s : State) : Step → State
  | .edit change => { s with directory := change s.directory }
  | .locate repoType => { s with loader := (s.loader.locate s.directory repoType).2 }
  | .load repoType => { s with loader := (s.loader.load formats s.directory repoType).2 }
  | .reset => { s with loader := s.loader.reset }

def State.run (formats : Formats) (s : State) (steps : List Step) : State :=
  steps.foldl (·.after formats) s

/-- A document is looked for, and there is neither one nor anything named like one. -/
def Step.Misses (d : Directory) : Step → Prop
  | .locate repoType | .load repoType =>
    (∀ name ∈ documentNames repoType, ¬ d.isFile name) ∧
      ∀ name ∈ d.names, ¬ "repo.".toList <+: name.toList
  | .edit _ | .reset => False

variable {formats : Formats} {s : State} {step : Step} {steps : List Step}

theorem holdsAny_eq_false :
    holdsAny d = false ↔ ∀ name ∈ d.names, ¬ "repo.".toList <+: name.toList := by
  simp [holdsAny, List.any_eq_false, List.isPrefixOf_iff_prefix]

theorem find?_eq_none :
    find? d repoType = none ↔ ∀ name ∈ documentNames repoType, ¬ d.isFile name := by
  rw [find?, candidates_eq, List.find?_eq_none]

/-- Only a miss disarms a loader. -/
theorem armed_locate : (l.locate d repoType).2.armed = false ↔
    (Step.locate repoType).Misses d ∨ l.armed = false := by
  rw [Step.Misses, ← find?_eq_none, ← holdsAny_eq_false, Loader.locate]
  cases find? d repoType with
  | some name => simp
  | none => cases holdsAny d <;> simp

theorem snd_load (formats : Formats) (d : Directory) (repoType : String) (l : Loader) :
    (l.load formats d repoType).2 = (l.locate d repoType).2 := by
  rw [Loader.load]
  cases l.locate d repoType with
  | mk found l => cases found <;> rfl

theorem State.armed_after : (s.after formats step).loader.armed = false ↔
    step.Misses s.directory ∨ step ≠ .reset ∧ s.loader.armed = false := by
  cases step with
  | edit change => simp [after, Step.Misses]
  | locate repoType => simpa [after] using armed_locate
  | load repoType =>
    rw [after, snd_load, armed_locate]
    simp [Step.Misses]
  | reset => simp [after, Step.Misses, Loader.reset]

/-- Some step of a run has missed, and no later one has armed the loader again. -/
def State.Missed (formats : Formats) (s : State) (steps : List Step) : Prop :=
  ∃ before step after, steps = before ++ step :: after ∧
    step.Misses (s.run formats before).directory ∧ Step.reset ∉ after

theorem State.missed_concat : s.Missed formats (steps ++ [step]) ↔
    step.Misses (s.run formats steps).directory ∨ step ≠ .reset ∧ s.Missed formats steps := by
  constructor
  · rintro ⟨before, miss, after, hsteps, hmiss, hafter⟩
    rcases List.eq_nil_or_concat' after with rfl | ⟨after, last, rfl⟩
    · obtain ⟨rfl, hlast⟩ := List.append_inj' hsteps rfl
      obtain rfl := List.singleton_inj.mp hlast
      exact .inl hmiss
    · rw [← List.cons_append, ← List.append_assoc] at hsteps
      obtain ⟨rfl, hlast⟩ := List.append_inj' hsteps rfl
      obtain rfl := List.singleton_inj.mp hlast
      obtain ⟨hafter, hreset⟩ := not_or.mp (mt List.mem_append.mpr hafter)
      have hne : step ≠ .reset := fun heq ↦ hreset (heq ▸ List.mem_singleton_self _)
      exact .inr ⟨hne, before, miss, after, rfl, hmiss, hafter⟩
  · rintro (hmiss | ⟨hreset, before, miss, after, rfl, hmiss, hafter⟩)
    · exact ⟨steps, step, [], rfl, hmiss, List.not_mem_nil⟩
    · refine ⟨before, miss, after ++ [step], by simp, hmiss, ?_⟩
      simp [hafter, Ne.symm hreset]

theorem State.armed_run (hs : s.loader.armed = true) (steps : List Step) :
    (s.run formats steps).loader.armed = false ↔ s.Missed formats steps := by
  induction steps using List.reverseRecOn with
  | nil =>
    constructor
    · intro h
      exact absurd (h.symm.trans hs) Bool.false_ne_true
    · intro ⟨_, _, _, hsteps, _⟩
      exact absurd hsteps.symm (List.append_ne_nil_of_right_ne_nil _ (List.cons_ne_nil _ _))
  | append_singleton steps step ih =>
    rw [State.missed_concat, ← ih, run, List.foldl_append]
    exact State.armed_after

end Runs

structure LooksUp (limits : Limits) (d : Directory) (l : Loader) (repoType : String) : Prop where
  located_iff : ∀ name, (l.locate d repoType).1 = some name ↔
    d.isFile name ∧ ∃ before after, documentNames repoType = before ++ name :: after ∧
      ∀ other ∈ before, ¬ d.isFile other
  none_iff : (l.locate d repoType).1 = none ↔ ∀ name ∈ documentNames repoType, ¬ d.isFile name
  load_none_iff : (l.load (formats limits) d repoType).1 = .ok none ↔
    (l.locate d repoType).1 = none
  load_some : ∀ name, (l.locate d repoType).1 = some name →
    (∃ text, d.read name = .ok text ∧ (l.load (formats limits) d repoType).1 =
      Except.map some (if Bare repoType then .error (.unsupportedFormat (d.pathOf name))
        else readAs limits name text)) ∨
    name ∈ d.binaries ∧ (l.load (formats limits) d repoType).1 =
      .error (.unreadable (d.pathOf name) "stream did not contain valid UTF-8")

theorem looksUp (limits : Limits) (d : Directory) (l : Loader) (repoType : String) :
    LooksUp limits d l repoType where
  located_iff name := by
    rw [fst_locate, List.find?_eq_some_iff_append]
    simp
  none_iff := by
    rw [fst_locate, List.find?_eq_none]
  load_none_iff := by
    rw [fst_load]
    cases (l.locate d repoType).1 with
    | none => simp
    | some name =>
      have hsome : (documentAt (formats limits) d name).map some ≠ .ok none := by
        cases documentAt (formats limits) d name <;> simp [Except.map]
      simpa using hsome
  load_some name hname := by
    rw [fst_load, hname]
    rw [fst_locate] at hname
    rcases Directory.read_of_isFile (List.find?_some hname) with ⟨text, htext⟩ | ⟨hbinary, hread⟩
    · refine .inl ⟨text, htext, ?_⟩
      simp only [documentAt_eq (List.mem_of_find?_eq_some hname) htext]
    · refine .inr ⟨hbinary, ?_⟩
      simp only [documentAt, hread, Except.map]

/-- After every run of a new loader, whatever has been done to the directory: each type's document
is found as the directory stands, and the loader is armed unless it has missed one. -/
theorem run_finds_and_disarms (limits : Limits) (d : Directory) (steps : List Step) :
    let s := State.run (formats limits) ⟨d, {}⟩ steps
    (∀ repoType, LooksUp limits s.directory s.loader repoType) ∧
      (s.loader.armed = false ↔ State.Missed (formats limits) ⟨d, {}⟩ steps) := by
  intro s
  exact ⟨fun repoType ↦ looksUp limits s.directory s.loader repoType, State.armed_run rfl steps⟩

example :
    let d : Directory :=
      { path := "conf"
        files := [("service.repo.orders.yml", "")]
        directories := ["repo.orders.json"] }
    (Loader.locate d "Orders" {}).1 = some "service.repo.orders.yml" := by
  decide

end Bootstrap

end RecordService
