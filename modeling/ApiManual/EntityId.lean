/-! # Identifiers of entities -/

namespace ApiManual

/-- The stable identifier of an entity. -/
structure EntityId where
  text : String
  deriving DecidableEq, Hashable, Repr, Inhabited

theorem EntityId.eq_iff {left right : EntityId} :
    left = right ↔ left.text = right.text := by
  cases left
  cases right
  simp

end ApiManual
