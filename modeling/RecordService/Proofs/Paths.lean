import RecordService.Proofs.Address

namespace RecordService.Path

variable {p q : Path} {s : String}

inductive Made : Path → Prop
  | ofText (text : String) : Made (.ofText text)
  | empty : Made .empty
  | parent {p q : Path} : Made p → p.parent? = some q → Made q
  | child {p : Path} (text : String) : Made p → Made (p.child text)
  | append {p q : Path} : Made p → Made q → Made (p ++ q)
  | type {p q : Path} {s : String} : Made p → p.splitInstance? = some (q, s) → Made q

theorem clean_empty : Path.empty.Clean := nofun

theorem Clean.child (h : p.Clean) (text : String) : (p.child text).Clean :=
  h.append (clean_ofText text)

theorem Clean.parent (h : p.Clean) (hq : p.parent? = some q) : q.Clean := by
  intro s hs
  unfold parent? at hq
  split at hq
  · cases hq
  · obtain rfl := Option.some_inj.mp hq
    exact h s ((List.dropLast_sublist p.segments).subset hs)

theorem Clean.type (h : p.Clean) (hq : p.splitInstance? = some (q, s)) : q.Clean := by
  rw [splitInstance?_eq_some] at hq
  subst hq
  exact h.left

theorem Made.clean (h : p.Made) : p.Clean := by
  induction h with
  | ofText text => exact clean_ofText text
  | empty => exact clean_empty
  | parent _ hq ih => exact ih.parent hq
  | child text _ ih => exact ih.child text
  | append _ _ ihp ihq => exact ihp.append ihq
  | type _ hq ih => exact ih.type hq

/-- A path with plain segments is read from its own text. -/
theorem Clean.made (h : p.Clean) : p.Made := by
  rw [← ofText_text h]
  exact .ofText p.text

structure Composes (p : Path) : Prop where
  plain : ∀ s ∈ p.segments, s ≠ "" ∧ '/' ∉ s.toList
  reread : ofText p.text = p
  told : ∀ q, q.Made → p.text = q.text → p = q
  child : ∀ text, p.child text = p ++ ofText text
  split : ∀ s, s ≠ "" → '/' ∉ s.toList → (p.child s).splitInstance? = some (p, s)
  starts_iff : ∀ q, p.startsWith q ↔ ∃ r, r.Made ∧ p = q ++ r
  prefix_unique : ∀ q r, p.startsWith q → p.startsWith r →
    q.segments.length = r.segments.length → q = r

theorem Made.composes (h : p.Made) : p.Composes where
  plain := h.clean
  reread := ofText_text h.clean
  told q hq htext := (text_inj h.clean hq.clean).mp htext
  child text := rfl
  split s hne hslash := by
    rw [child_plain ⟨hne, hslash⟩, splitInstance?_eq_some]
  starts_iff q := by
    rw [startsWith_iff]
    constructor
    · rintro ⟨r, hr⟩
      have hclean : (q ++ r).Clean := hr ▸ h.clean
      exact ⟨r, hclean.right.made, hr⟩
    · rintro ⟨r, -, hr⟩
      exact ⟨r, hr⟩
  prefix_unique q r hq hr hlength := eq_of_startsWith hq hr hlength

theorem users_and_roles_compose :
    let p : Path := ⟨["managed", "user"]⟩ ++ (ofText "/x//y/").child "role/"
    p.Made ∧ p.Composes := by
  intro p
  have huser : (ofText "managed/user/u1").parent? = some ⟨["managed", "user"]⟩ := by decide
  have hmade : p.Made := (Made.parent (.ofText _) huser).append ((Made.ofText "/x//y/").child "role/")
  exact ⟨hmade, hmade.composes⟩

end RecordService.Path
