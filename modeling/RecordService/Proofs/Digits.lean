import RecordService.Http.Format

namespace RecordService

variable {n : Nat} {c : Char} {cs : List Char}

theorem toDigits_of_toString {text : String} (h : toString n = text) :
    Nat.toDigits 10 n = text.toList := by
  rw [← h, Nat.toString_eq_ofList_toDigits, String.toList_ofList]

theorem toString_injective {m n : Nat} (h : toString m = toString n) : m = n := by
  have hdigits : Nat.toDigits 10 m = Nat.toDigits 10 n := by
    rw [toDigits_of_toString h, ← toDigits_of_toString rfl]
  rw [← Nat.ofDigitChars_ten_toDigits (n := m), hdigits, Nat.ofDigitChars_ten_toDigits]

theorem isDigit_of_mem_toDigits (h : c ∈ Nat.toDigits 10 n) : c.isDigit :=
  Nat.isDigit_of_mem_toDigits (by omega) (by omega) h

namespace Text

theorem digits?_of_isDigit (h : ∀ c ∈ cs, c.isDigit) :
    digits? cs = some (cs.map fun c ↦ c.toNat - '0'.toNat) := by
  induction cs with
  | nil => rfl
  | cons c cs ih =>
    obtain ⟨hc, hcs⟩ := List.forall_mem_cons.mp h
    have hrest := ih hcs
    rw [digits?] at hrest ⊢
    rw [List.mapM_cons, digit?, if_pos hc, hrest]
    rfl

theorem ofDigits_map (cs : List Char) (n : Nat) :
    (cs.map fun c ↦ c.toNat - '0'.toNat).foldl (fun n d ↦ n * 10 + d) n =
      Nat.ofDigitChars 10 cs n := by
  rw [List.foldl_map, Nat.ofDigitChars]
  simp only [Nat.mul_comm 10]

theorem nat?_toDigits (n : Nat) : nat? (Nat.toDigits 10 n) = some n := by
  have hne : (Nat.toDigits 10 n).isEmpty = false := by simp
  rw [nat?, hne, digits?_of_isDigit fun c ↦ isDigit_of_mem_toDigits]
  exact congrArg some ((ofDigits_map _ 0).trans Nat.ofDigitChars_ten_toDigits)

theorem signed?_toDigits {most : Nat} (h : n ≤ most) :
    signed? most (Nat.toDigits 10 n) = some (n : Int) := by
  have hnat := nat?_toDigits n
  have hdigit : ∀ c ∈ Nat.toDigits 10 n, c.isDigit := fun c ↦ isDigit_of_mem_toDigits
  cases hcs : Nat.toDigits 10 n with
  | nil => exact absurd hcs Nat.toDigits_ne_nil
  | cons c cs =>
    rw [hcs] at hnat hdigit
    have hc := hdigit c List.mem_cons_self
    have hminus : c ≠ '-' := by
      rintro rfl
      exact absurd hc (by decide)
    have hplus : c ≠ '+' := by
      rintro rfl
      exact absurd hc (by decide)
    have hsigned : signed? most (c :: cs) = (unsigned? most (c :: cs)).map Int.ofNat := by
      simp [signed?, hminus]
    have hunsigned : unsigned? most (c :: cs) = (nat? (c :: cs)).filter (· ≤ most) := by
      simp [unsigned?, hplus]
    rw [hsigned, hunsigned, hnat, Option.filter_some, if_pos (decide_eq_true h)]
    rfl

theorem not_isBlank_of_isDigit (h : c.isDigit) : isBlank c = false := by
  have hrange : 48 ≤ c.toNat ∧ c.toNat ≤ 57 := by
    simpa [Char.isDigit, UInt32.le_iff_toNat_le] using h
  simp only [isBlank]
  grind

theorem strip_eq_self {drop : Char → Bool} (h : ∀ c ∈ cs, drop c = false) : strip drop cs = cs := by
  have hdrop : ∀ ds : List Char, (∀ c ∈ ds, drop c = false) → ds.dropWhile drop = ds := by
    intro ds hds
    cases ds with
    | nil => rfl
    | cons c ds =>
      exact List.dropWhile_cons_of_neg (by
        rw [hds c List.mem_cons_self]
        exact Bool.false_ne_true)
  rw [strip, hdrop cs h, hdrop cs.reverse fun c hc ↦ h c (List.mem_reverse.mp hc),
    List.reverse_reverse]

theorem trim_of_isDigit (h : ∀ c ∈ cs, c.isDigit) : trim cs = cs :=
  strip_eq_self fun c hc ↦ not_isBlank_of_isDigit (h c hc)

end Text

/-- A number of 31 bits is read from its text. -/
theorem Http.integer_toString (name : String) (h : n ≤ Text.maxOfBits 31) :
    Http.integer name (toString n) = .ok (n : Int) := by
  rw [integer, ← toDigits_of_toString rfl, Text.trim_of_isDigit fun c ↦ isDigit_of_mem_toDigits,
    Text.signed?_toDigits h]

end RecordService
