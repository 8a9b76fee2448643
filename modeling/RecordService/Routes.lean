import RecordService.Handler
import RecordService.Mapping.Document

namespace RecordService

/-- A configured type path, or none for the default handler. -/
abbrev Route := Option Path

structure Routes where
  configured : List (Path × Handler)
  default : Handler
  remembered : List (Path × Route) := []
  limit : Nat := 10000

namespace Routes

def ofDocument (limits : Limits) (limit : Nat) (d : MappingDocument) :
    Except MappingError Routes := do
  d.validate limits
  let genericQueries ← d.genericQueries
  let generic (resource : Path) (settings : TypeSettings) : Handler :=
    { kind := .generic (Generic.explicitFields settings.explicitProperties), resource,
      catalog := ⟨genericQueries, d.commands⟩, limits }
  let (resource, settings) ← d.defaultMapping
  let mappings ← d.typeMappings
  let configured ← mappings.mapM fun m ↦
    if m.isGeneric then .ok (m.type, generic m.resource m.settings)
    else d.explicitQueries.map fun queries ↦
      (m.type, { kind := .explicit, resource := m.resource,
                 catalog := ⟨queries, d.commands⟩, limits })
  .ok { configured, default := generic resource settings, limit := max 1 limit }

def configured? (r : Routes) (type : Path) : Option Handler :=
  (r.configured.find? fun p ↦ p.1 = type).map (·.2)

def handler (r : Routes) (route : Route) : Handler := (route.bind r.configured?).getD r.default

def longer (a b : Path) : Path := if a.segments.length < b.segments.length then b else a

/-- The longest of the configured paths that a type path starts with. -/
def longest (r : Routes) (type : Path) : Route :=
  ((r.configured.map (·.1)).filter type.startsWith).foldl
    (fun best p ↦ some (match best with
      | none => p
      | some b => longer b p)) none

def known? (r : Routes) (type : Path) : Option Route :=
  (r.remembered.find? fun p ↦ p.1 = type).map (·.2)

def remember (r : Routes) (type : Path) (route : Route) : Routes :=
  let kept := if r.limit ≤ r.remembered.length then [] else r.remembered
  { r with remembered := (type, route) :: kept }

def resolve (r : Routes) (type : Path) : Route × Routes :=
  if (r.configured? type).isSome then (some type, r)
  else match r.known? type with
    | some route => (route, r)
    | none =>
      let route := r.longest type
      (route, r.remember type route)

end Routes

end RecordService
