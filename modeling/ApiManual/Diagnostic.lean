import ApiManual.Entity

/-! # Diagnostics: problems that do not stop a run -/

namespace ApiManual

/-- How serious a diagnostic is, in ascending order. -/
inductive Severity where
  | info
  | warning
  | error
  deriving DecidableEq, Repr

namespace Severity

def name : Severity → String
  | .info => "info"
  | .warning => "warning"
  | .error => "error"

def rank : Severity → Nat
  | .info => 0
  | .warning => 1
  | .error => 2

def ofName? (name : String) : Option Severity :=
  [info, warning, error].find? (·.name = name)

end Severity

/-- A message about one entity. -/
structure Diagnostic where
  severity : Severity
  entity : EntityId
  location : Option Location
  message : String
  deriving DecidableEq, Repr

namespace Diagnostic

/-- A warning about an identifier, placed where the entity is declared if it is
registered. -/
def warning (id : EntityId) (entity : Option Entity) (message : String) :
    Diagnostic where
  severity := .warning
  entity := id
  location := entity.map (·.location)
  message := message

/-- A diagnostic on one line: its place, its message and its entity. -/
def text (diagnostic : Diagnostic) : String :=
  let place := match diagnostic.location with
    | some location => location.text ++ ": "
    | none => ""
  place ++ diagnostic.message ++ " [" ++ diagnostic.entity.text ++ "]"

def warnings (diagnostics : List Diagnostic) : List Diagnostic :=
  diagnostics.filter (·.severity = .warning)

/-- The greatest severity among diagnostics, if there are any. -/
def highest? : List Diagnostic → Option Severity
  | [] => none
  | diagnostic :: rest =>
      match highest? rest with
      | none => some diagnostic.severity
      | some severity =>
          if severity.rank ≤ diagnostic.severity.rank then some diagnostic.severity
          else some severity

end Diagnostic

end ApiManual
