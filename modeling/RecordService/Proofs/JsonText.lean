import RecordService.Json.Reader
import RecordService.Proofs.Dictionaries

namespace RecordService

inductive Json.Orderly : Json → Prop
  | null : Orderly .null
  | bool (b : Bool) : Orderly (.bool b)
  | num (n : Number) : Orderly (.num n)
  | str (s : String) : Orderly (.str s)
  | arr {items : List Json} : (∀ v ∈ items, Orderly v) → Orderly (.arr items)
  | obj {fields : Dict Json} : Dict.Sorted fields → (∀ p ∈ fields, Orderly p.2) →
      Orderly (.obj fields)

/-- JSON text has no values that are written as such. -/
inductive Markup.Written : Markup → Prop
  | word (w : String) : Written (.word w)
  | text (s : String) : Written (.text s)
  | list {items : List Markup} : (∀ m ∈ items, Written m) → Written (.list items)
  | fields {pairs : List (String × Markup)} : (∀ p ∈ pairs, Written p.2) → Written (.fields pairs)

namespace Json.Reading

variable {m : Markup} {stack : List Frame} {frame : Frame} {token : Token} {r r' : Reading}

inductive Open : Frame → Prop
  | list {items : List Markup} : (∀ m ∈ items, m.Written) → Open (.list items)
  | fields {pairs : List (String × Markup)} : (∀ p ∈ pairs, p.2.Written) → Open (.fields pairs)
  | entry {pairs : List (String × Markup)} (key : String) : (∀ p ∈ pairs, p.2.Written) →
      Open (.entry pairs key)

structure Written (r : Reading) : Prop where
  stack : ∀ frame ∈ r.stack, Open frame
  document : ∀ m, r.expects = .nothing m → m.Written

theorem written_cons {expects : Expects} (hframe : Open frame) (hstack : ∀ f ∈ stack, Open f)
    (hexpects : ∀ m, expects ≠ .nothing m) : Written ⟨frame :: stack, expects⟩ :=
  ⟨List.forall_mem_cons.mpr ⟨hframe, hstack⟩, fun m h ↦ absurd h (hexpects m)⟩

theorem written_of_complete (h : complete m stack = some r) (hm : m.Written)
    (hstack : ∀ f ∈ stack, Open f) : r.Written := by
  cases stack with
  | nil =>
    cases h
    refine ⟨hstack, fun document hdocument ↦ ?_⟩
    cases hdocument
    exact hm
  | cons frame stack =>
    obtain ⟨hframe, hrest⟩ := List.forall_mem_cons.mp hstack
    cases hframe with
    | list hitems =>
      cases h
      exact written_cons (.list (List.forall_mem_cons.mpr ⟨hm, hitems⟩)) hrest nofun
    | fields => cases h
    | entry key hpairs =>
      cases h
      exact written_cons (.fields (List.forall_mem_cons.mpr ⟨hm, hpairs⟩)) hrest nofun

theorem written_of_stepValue (h : stepValue stack token = some r) (hstack : ∀ f ∈ stack, Open f) :
    r.Written := by
  cases token with
  | word w =>
    simp only [stepValue] at h
    split at h
    · exact written_of_complete h (.word w) hstack
    · cases h
  | text s => exact written_of_complete h (.text s) hstack
  | openList =>
    cases h
    exact written_cons (.list nofun) hstack nofun
  | openFields =>
    cases h
    exact written_cons (.fields nofun) hstack nofun
  | _ => cases h

theorem written_of_stepClose (h : stepClose stack token = some r)
    (hstack : ∀ f ∈ stack, Open f) : r.Written := by
  cases stack with
  | nil => cases h
  | cons frame stack =>
    obtain ⟨hframe, hrest⟩ := List.forall_mem_cons.mp hstack
    cases hframe with
    | list hitems =>
      cases token with
      | closeList =>
        refine written_of_complete h (.list fun m hm ↦ ?_) hrest
        exact hitems m (List.mem_reverse.mp hm)
      | _ => cases h
    | fields hpairs =>
      cases token with
      | closeFields =>
        refine written_of_complete h (.fields fun p hp ↦ ?_) hrest
        exact hpairs p (List.mem_reverse.mp hp)
      | _ => cases h
    | entry => cases h

theorem written_of_step (hr : r.Written) (h : r.step token = some r') : r'.Written := by
  have hstack := hr.stack
  unfold step at h
  split at h
  · exact written_of_stepValue h hstack
  · exact written_of_stepClose h hstack
  · exact written_of_stepValue h hstack
  · exact written_of_stepClose h hstack
  · cases h
    exact ⟨hstack, nofun⟩
  · cases h
    exact ⟨hstack, nofun⟩
  · -- After a key, the fields on top wait for its value.
    split at h <;> cases h
    rename_i hopen
    rw [hopen] at hstack
    obtain ⟨hframe, hrest⟩ := List.forall_mem_cons.mp hstack
    cases hframe with
    | fields hpairs => exact written_cons (.entry _ hpairs) hrest nofun
  · split at h <;> cases h <;> exact ⟨hstack, nofun⟩
  · exact written_of_stepClose h hstack
  · cases h

theorem written_of_foldlM {tokens : List Token} (hr : r.Written)
    (h : tokens.foldlM step r = some r') : r'.Written := by
  induction tokens generalizing r with
  | nil =>
    cases h
    exact hr
  | cons token tokens ih =>
    rw [List.foldlM_cons] at h
    obtain ⟨next, hnext, h⟩ := Option.bind_eq_some_iff.mp h
    exact ih (written_of_step hr hnext) h

end Json.Reading

namespace Markup

variable {m : Markup} {value? : String → Option Json} {room : Nat} {v : Json}

theorem exists_of_mem_jsonItems? {items : List Markup} {values : List Json}
    (h : jsonItems? value? items room = some values) (hv : v ∈ values) :
    ∃ m ∈ items, m.json? value? room = some v := by
  induction items generalizing values with
  | nil =>
    cases h
    cases hv
  | cons m items ih =>
    obtain ⟨first, hfirst, h⟩ := Option.bind_eq_some_iff.mp h
    obtain ⟨rest, hrest, h⟩ := Option.bind_eq_some_iff.mp h
    cases h
    obtain rfl | hv := List.mem_cons.mp hv
    · exact ⟨m, List.mem_cons_self, hfirst⟩
    · obtain ⟨m', hm', hvalue⟩ := ih hrest hv
      exact ⟨m', List.mem_cons_of_mem m hm', hvalue⟩

theorem exists_of_mem_jsonFields? {pairs : List (String × Markup)} {fields : Dict Json}
    {field : String × Json} (h : jsonFields? value? pairs room = some fields)
    (hfield : field ∈ fields) : ∃ p ∈ pairs, p.2.json? value? room = some field.2 := by
  induction pairs generalizing fields with
  | nil =>
    cases h
    cases hfield
  | cons p pairs ih =>
    obtain ⟨first, hfirst, h⟩ := Option.bind_eq_some_iff.mp h
    obtain ⟨rest, hrest, h⟩ := Option.bind_eq_some_iff.mp h
    cases h
    obtain rfl | hfield := List.mem_cons.mp hfield
    · exact ⟨p, List.mem_cons_self, hfirst⟩
    · obtain ⟨p', hp', hvalue⟩ := ih hrest hfield
      exact ⟨p', List.mem_cons_of_mem p hp', hvalue⟩

/-- What is written gives orderly values, if its words do. -/
theorem Written.orderly (hm : m.Written) (hword : ∀ w v, value? w = some v → v.Orderly)
    (h : m.json? value? room = some v) : v.Orderly := by
  induction hm generalizing room v with
  | word w => exact hword w v h
  | text s =>
    cases h
    exact .str s
  | list _ ih =>
    cases room with
    | zero => cases h
    | succ room =>
      obtain ⟨values, hvalues, rfl⟩ := Option.map_eq_some_iff.mp h
      refine .arr fun v hv ↦ ?_
      obtain ⟨m, hm, hvalue⟩ := exists_of_mem_jsonItems? hvalues hv
      exact ih m hm hvalue
  | fields _ ih =>
    cases room with
    | zero => cases h
    | succ room =>
      obtain ⟨pairs, hpairs, rfl⟩ := Option.map_eq_some_iff.mp h
      refine .obj (Dict.sorted_ofList pairs) fun field hfield ↦ ?_
      obtain ⟨p, hp, hvalue⟩ := exists_of_mem_jsonFields? hpairs (Dict.mem_of_mem_ofList hfield)
      exact ih p hp hvalue

end Markup

namespace Json

theorem orderly_of_ofWord? {w : String} {v : Json} (h : ofWord? w = some v) : v.Orderly := by
  unfold ofWord? at h
  split at h
  · cases h
    exact .null
  split at h
  · cases h
    exact .bool true
  split at h
  · cases h
    exact .bool false
  · obtain ⟨n, -, rfl⟩ := Option.map_eq_some_iff.mp h
    exact .num n

/-- Values that are read from text are orderly. -/
theorem orderly_of_ofText? {text : String} {v : Json} (h : ofText? text = some v) : v.Orderly := by
  obtain ⟨m, hm, h⟩ := Option.bind_eq_some_iff.mp h
  obtain ⟨tokens, -, hm⟩ := Option.bind_eq_some_iff.mp hm
  obtain ⟨r, hr, hm⟩ := Option.bind_eq_some_iff.mp hm
  have hstart : Reading.start.Written := ⟨nofun, nofun⟩
  have hdocument := (Reading.written_of_foldlM hstart hr).document
  have hwritten : m.Written := by
    unfold Reading.document? at hm
    split at hm
    · rename_i hexpects
      cases hm
      exact hdocument m hexpects
    · cases hm
  exact hwritten.orderly (fun _ _ hword ↦ orderly_of_ofWord? hword) h

/-- An object that is read from text has its fields in order. -/
theorem sorted_of_ofText? {text : String} {fields : Dict Json}
    (h : ofText? text = some (.obj fields)) : Dict.Sorted fields := by
  cases orderly_of_ofText? h with
  | obj hfields => exact hfields

end Json

end RecordService
