import RecordService.Http
import RecordService.Proofs.Digits
import RecordService.Proofs.JsonText
import RecordService.Proofs.WritingBack

namespace RecordService

namespace Service

variable {s : Service} {h : Handler} {type : Path} {r : Request}

/-- The service sends a type to a handler that has written all that is stored. -/
structure Runs (s : Service) (h : Handler) (type : Path) : Prop where
  granting : s.pool.refusing = false
  routed : s.routes.handlerFor type = h
  reached : h.Reaches Request.Contained s.store

theorem Runs.serve (hs : s.Runs h r.typePath) (hr : r.Contained) (context : Context) :
    ∃ c, Store.checkConnection c = .ok () ∧ (s.serve context r).1 = h.answer c r s.store ∧
      (s.serve context r).2.store = h.after c r s.store ∧
      (s.serve context r).2.Runs h r.typePath := by
  obtain ⟨granting, rfl, hreached⟩ := hs
  obtain ⟨c, hopen, pool, hpool, hserve⟩ := serve_eq granting context r
  have hc : Store.checkConnection (some c) = .ok () := by simp [Store.checkConnection, hopen]
  rw [hserve]
  exact ⟨some c, hc, rfl, rfl, hpool, s.routes.handlerFor_again _, .serve _ r hreached hr⟩

end Service

namespace Http

variable {call : Call} {path : Path} {query : List Char} {content : Json} {fields : Dict Json}
  {s : Service} {cors : Bool} {depth : Nat}

theorem sorted_of_bodyJson {body : List UInt8} (h : bodyJson body = .ok (.obj fields)) :
    Dict.Sorted fields := by
  unfold bodyJson at h
  split at h
  · cases h
  · split at h
    · rename_i v hread
      cases h
      obtain ⟨text, -, hread⟩ := Option.bind_eq_some_iff.mp hread
      exact Json.sorted_of_ofText? hread
    · cases h

def addressed? (call : Call) : Option (Path × List Char) :=
  let (path, query) := splitTarget call.target.toList
  (resourcePath? path).bind fun encoded ↦
    (decodePath? encoded).map fun text ↦ (Path.ofText text, query)

structure Gets (path : Path) (call : Call) : Prop where
  method : call.method = "GET"
  target : ∃ query, addressed? call = some (path, query) ∧ parameters query = []

structure Puts (path : Path) (call : Call) : Prop where
  method : call.method = "PUT"
  target : ∃ query, addressed? call = some (path, query)

theorem clean_of_addressed (h : addressed? call = some (path, query)) : path.Clean := by
  obtain ⟨_, -, h⟩ := Option.bind_eq_some_iff.mp h
  obtain ⟨text, -, h⟩ := Option.map_eq_some_iff.mp h
  rw [← (Prod.mk.inj h).1]
  exact Path.clean_ofText text

theorem answer_addressed (h : addressed? call = some (path, query)) (hmethod : call.method ≠ "OPTIONS")
    (cors : Bool) (depth : Nat) (s : Service) : ∃ encoded text,
      decodePath? encoded = some text ∧ Path.ofText text = path ∧
        answer cors depth call s = onResource depth call encoded query s := by
  unfold addressed? at h
  unfold answer
  cases hsplit : splitTarget call.target.toList with
  | mk p q =>
    simp only [hsplit] at h ⊢
    obtain ⟨encoded, hencoded, h⟩ := Option.bind_eq_some_iff.mp h
    obtain ⟨text, htext, h⟩ := Option.map_eq_some_iff.mp h
    obtain ⟨rfl, rfl⟩ := Prod.mk.inj h
    have hhealth : p ≠ "/health".toList := by
      rintro rfl
      cases hencoded
    have hoptions : ¬ (cors && call.method = "OPTIONS") := by simp [hmethod]
    exact ⟨encoded, text, htext, rfl, by rw [if_neg hoptions, if_neg hhealth, hencoded]⟩

theorem answer_gets (h : Gets path call) (cors : Bool) (depth : Nat) (s : Service) :
    answer cors depth call s =
      (.ofResult ((s.serve (contextOf call) (.read path [])).1.map fun record ↦ .ok record.json),
        (s.serve (contextOf call) (.read path [])).2) := by
  obtain ⟨query, haddressed, hquery⟩ := h.target
  have hmethod : call.method ≠ "OPTIONS" := by rw [h.method]; decide
  obtain ⟨encoded, text, htext, rfl, hanswer⟩ := answer_addressed haddressed hmethod cors depth s
  rw [hanswer, onResource, h.method, htext, hquery]
  rfl

theorem answer_puts (h : Puts path call) (hbody : bodyJson call.body = .ok content) (cors : Bool)
    (depth : Nat) (s : Service) :
    answer cors depth call s =
      (.ofResult ((s.serve (contextOf call) (.update path (revisionOf call) content)).1.map
        fun record ↦ .ok record.json),
        (s.serve (contextOf call) (.update path (revisionOf call) content)).2) := by
  obtain ⟨query, haddressed⟩ := h.target
  have hmethod : call.method ≠ "OPTIONS" := by rw [h.method]; decide
  obtain ⟨encoded, text, htext, rfl, hanswer⟩ := answer_addressed haddressed hmethod cors depth s
  rw [hanswer, onResource, h.method, htext]
  simp only [put, hbody]
  rfl

theorem granting_of_got {body : Json} (h : Gets path call)
    (hgot : (answer cors depth call s).1 = .ok body) : s.pool.refusing = false := by
  cases hpool : s.pool.refusing with
  | false => rfl
  | true =>
    rw [answer_gets h, Service.serve_refused hpool] at hgot
    have hstatus : 500 = 200 := congrArg Answer.status hgot
    omega

section Answered

variable {h : Handler} (hs : s.Runs h (path.parent?.getD .empty)) (hpath : path.Clean) (cors : Bool)
  (depth : Nat)
include hs hpath

/-- A call for an object is a read of the handler. -/
theorem Gets.answered (hget : Gets path call) : ∃ c, Store.checkConnection c = .ok () ∧
    (answer cors depth call s).1 =
      .ofResult ((h.answer c (.read path []) s.store).map fun record ↦ .ok record.json) ∧
    (answer cors depth call s).2.store = h.after c (.read path []) s.store ∧
    (answer cors depth call s).2.Runs h (path.parent?.getD .empty) := by
  have hread : Request.Contained (.read path []) := Request.permitted_of_unchanging hpath rfl
  obtain ⟨c, hc, hanswer, hstore, hruns⟩ :=
    Service.Runs.serve (r := .read path []) hs hread (contextOf call)
  rw [answer_gets hget]
  exact ⟨c, hc, by rw [hanswer], hstore, hruns⟩

/-- A call that puts an object is an update of the handler. -/
theorem Puts.answered (hput : Puts path call) (hbody : bodyJson call.body = .ok content) :
    ∃ c, Store.checkConnection c = .ok () ∧
      (answer cors depth call s).1 = .ofResult
        ((h.answer c (.update path (revisionOf call) content) s.store).map fun record ↦
          .ok record.json) ∧
      (answer cors depth call s).2.store =
        h.after c (.update path (revisionOf call) content) s.store ∧
      (answer cors depth call s).2.Runs h (path.parent?.getD .empty) := by
  have hupdate : Request.Contained (.update path (revisionOf call) content) :=
    Request.permitted_of_unchanging hpath rfl
  obtain ⟨c, hc, hanswer, hstore, hruns⟩ := Service.Runs.serve
    (r := .update path (revisionOf call) content) hs hupdate (contextOf call)
  rw [answer_puts hput hbody]
  exact ⟨c, hc, by rw [hanswer], hstore, hruns⟩

end Answered

theorem record_of_got {h : Handler} {c : Option Connection} {t : Store} {body : Json}
    (hpath : path.Clean) (hc : Store.checkConnection c = .ok ())
    (hgot : Answer.ofResult ((h.answer c (.read path []) t).map fun record ↦ .ok record.json) =
      .ok body) : ∃ record, h.answer c (.read path []) t = .ok record ∧ record.json = body := by
  cases hread : h.answer c (.read path []) t with
  | error fault =>
    rw [hread] at hgot
    obtain rfl | ⟨id, place, rfl⟩ := Handler.fault_of_refused_read hpath hc hread
    · have hstatus : 400 = 200 := congrArg Answer.status hgot
      omega
    · have hstatus : 404 = 200 := congrArg Answer.status hgot
      omega
  | ok record =>
    rw [hread] at hgot
    exact ⟨record, rfl, Option.some_inj.mp (congrArg Answer.body hgot)⟩

theorem revisionOf_number {n : Nat} (h : ∀ value ∈ header? "if-match" call, value = toString n) :
    ∀ r ∈ revisionOf call, r = toString n := by
  intro r hr
  obtain ⟨value, hvalue, hr⟩ := Option.bind_eq_some_iff.mp hr
  obtain rfl := h value hvalue
  have hdigits : ∀ c ∈ (toString n).toList, c.isDigit := by
    rw [← toDigits_of_toString rfl]
    exact fun c ↦ isDigit_of_mem_toDigits
  have hquote : ∀ c ∈ (toString n).toList, decide (c = '"') = false := by
    intro c hc
    refine decide_eq_false ?_
    rintro rfl
    exact absurd (hdigits _ hc) (by decide)
  simp only [Text.trim_of_isDigit hdigits, Text.strip_eq_self hquote, String.ofList_toList] at hr
  split at hr <;> cases hr
  rfl

/-- What was got with one call, put back with another that expects no other revision, is answered,
and got again, with the next revision and no other change. -/
theorem put_of_got {h : Handler} {get put again : Call} {b : Dict Json} (hf : h.Faithful)
    (hroute : s.routes.handlerFor (path.parent?.getD .empty) = h)
    (hreached : h.Reaches Request.Contained s.store) (hget : Gets path get)
    (hgot : (answer cors depth get s).1 = .ok (.obj b)) (hput : Puts path put)
    (hbody : bodyJson put.body = .ok (.obj b))
    (hmatch : ∀ value ∈ header? "if-match" put, Dict.get? revisionField b = some (.str value))
    (hagain : Gets path again) :
    let s₁ := (answer cors depth get s).2
    let s₂ := (answer cors depth put s₁).2
    ∃ n : Nat, Dict.get? revisionField b = some (.str (toString n)) ∧
      let b' := Dict.insert revisionField (.str (toString (n + 1))) b
      (answer cors depth put s₁).1 = .ok (.obj b') ∧
        (answer cors depth again s₂).1 = .ok (.obj b') := by
  intro s₁ s₂
  obtain ⟨query, haddressed, -⟩ := hget.target
  have hpath := clean_of_addressed haddressed
  have hs : s.Runs h (path.parent?.getD .empty) := ⟨granting_of_got hget hgot, hroute, hreached⟩
  obtain ⟨c, hc, hfirst, hstore, hs₁⟩ := hget.answered hs hpath cors depth
  obtain ⟨record, hread, hjson⟩ := record_of_got hpath hc (hfirst.symm.trans hgot)
  have htold := (Json.told_in_envelope hjson).2
  obtain ⟨m, hm⟩ := Handler.exists_revision_of_read hf hreached hpath hc hread
  have hrevision : ∀ r ∈ revisionOf put, r = record.revision := by
    rw [hm]
    refine revisionOf_number fun value hvalue ↦ ?_
    rw [← hm]
    exact Json.str.inj (Option.some_inj.mp ((hmatch value hvalue).symm.trans htold))
  obtain ⟨c', hc', hanswer, hstore', hs₂⟩ := hput.answered hs₁ hpath cors depth hbody
  have hread₁ : h.answer c' (.read path []) s₁.store = .ok record := by
    rw [hstore]
    exact Handler.answer_read_again hf hreached hpath hc hread hc'
  obtain ⟨n, written, hn, hwritten, hupdate, hread₂⟩ := Handler.answer_write_back hf hs₁.reached
    hpath hc' hread₁ hjson (sorted_of_bodyJson hbody) hrevision hc'
  obtain ⟨c'', hc'', hlast, -, -⟩ := hagain.answered hs₂ hpath cors depth
  refine ⟨n, hn ▸ htold, ?_, ?_⟩
  · rw [hanswer, hupdate, ← hwritten]
    rfl
  · rw [hlast, hstore', hread₂ c'' hc'', ← hwritten]
    rfl

theorem user_put_of_got :
    let h : Handler :=
      ⟨.generic (Generic.explicitFields ["userName"]), ⟨["managedobjects"]⟩, {}, {}⟩
    let create : Request :=
      .create ⟨["managed", "user"]⟩ (some "u1") (.obj [("mail", .str "m"), ("userName", .str "u")])
    let s : Service :=
      { routes := { configured := [], default := h }
        store := h.after (some ⟨"local-1", false⟩) create (.empty fun _ ↦ "") }
    let b (revision : String) : Dict Json := [("_id", .str "u1"), ("_rev", .str revision),
      ("mail", .str "m"), ("userName", .str "u")]
    let get : Call := ⟨"GET", "/repo/managed/user/u1", [], []⟩
    let put : Call := ⟨"PUT", "/repo/managed/user/u1", [("If-Match", "1")],
      Text.Utf8.encode (Json.obj (b "1")).text⟩
    h.Faithful ∧ h.Reaches Request.Contained s.store ∧
      (answer false 10 get s).1 = .ok (.obj (b "1")) ∧ bodyJson put.body = .ok (.obj (b "1")) ∧
        (answer false 10 put (answer false 10 get s).2).1 = .ok (.obj (b "2")) := by
  intro h create s b get put
  have hf : h.Faithful := by
    rintro _ ⟨⟩
    exact ⟨["userName"], rfl, by decide, by decide⟩
  have hcreate : create.Contained := Request.permitted_of_unchanging (by decide) rfl
  have hs : h.Reaches Request.Contained s.store := .serve _ create (.empty _) hcreate
  have hget : Gets ⟨["managed", "user", "u1"]⟩ get := ⟨rfl, [], by decide +kernel, by rfl⟩
  have hput : Puts ⟨["managed", "user", "u1"]⟩ put := ⟨rfl, [], by decide +kernel⟩
  have hgot : (answer false 10 get s).1 = .ok (.obj (b "1")) := by
    have hstatus : (answer false 10 get s).1.status = 200 := by decide +kernel
    have hbody : (answer false 10 get s).1.body = some (.obj (b "1")) := by decide +kernel
    exact congrArg₂ Answer.mk hstatus hbody
  have hbody : bodyJson put.body = .ok (.obj (b "1")) := by
    have hread : (bodyJson put.body).toOption = some (.obj (b "1")) := by decide +kernel
    cases hresult : bodyJson put.body with
    | error fault =>
      rw [hresult] at hread
      cases hread
    | ok v =>
      rw [hresult] at hread
      cases hread
      rfl
  have hmatch : ∀ value ∈ header? "if-match" put,
      Dict.get? revisionField (b "1") = some (.str value) := by decide +kernel
  obtain ⟨n, hn, hanswer, -⟩ := put_of_got hf rfl hs hget hgot hput hbody hmatch hget
  obtain rfl : n = 1 := toString_injective (Json.str.inj (Option.some_inj.mp hn)).symm
  exact ⟨hf, hs, hgot, hbody, hanswer⟩

end Http

end RecordService
