import ApiManual.Kind

/-!
# Groups of members

Pages are laid out by the groups of their container, and tables of contents
collect their links by them.  A member in no group of its container is not
listed.
-/

namespace ApiManual

/-- A labelled set of kinds that a container lists together. -/
structure MemberGroup where
  label : String
  kinds : List Kind
  deriving DecidableEq, Repr

namespace MemberGroup

def lists (group : MemberGroup) (kind : Kind) : Bool := kind ∈ group.kinds

def ofModule : List MemberGroup :=
  [⟨"Namespaces", [.nameSpace]⟩, ⟨"Classes", [.classType]⟩,
   ⟨"Interfaces", [.interfaceType]⟩, ⟨"Functions", [.function]⟩,
   ⟨"Types", [.typeAlias]⟩, ⟨"Enums", [.enumeration]⟩,
   ⟨"Variables", [.variableBinding]⟩]

def ofClass : List MemberGroup :=
  [⟨"Constructor", [.constructor]⟩, ⟨"Index signatures", [.indexSignature]⟩,
   ⟨"Properties", [.property]⟩, ⟨"Methods", [.method]⟩]

def ofInterface : List MemberGroup :=
  [⟨"Construct and call signatures", [.constructor, .callSignature]⟩,
   ⟨"Index signatures", [.indexSignature]⟩, ⟨"Properties", [.property]⟩,
   ⟨"Methods", [.method]⟩]

end MemberGroup

namespace Kind

/-- The groups in which a container of this kind lists its members; `none` for
kinds that list none. -/
def memberGroups? : Kind → Option (List MemberGroup)
  | .sourceFile | .nameSpace => some MemberGroup.ofModule
  | .classType => some MemberGroup.ofClass
  | .interfaceType => some MemberGroup.ofInterface
  | _ => none

/-- The groups in which an entity of this kind lists members, possibly none. -/
def memberGroups (kind : Kind) : List MemberGroup := kind.memberGroups?.getD []

end Kind

/-- No kind is in two groups of the same container. -/
theorem Kind.memberGroups_disjoint (container : Kind) :
    container.memberGroups.Pairwise
      fun left right => ∀ kind ∈ left.kinds, kind ∉ right.kinds := by
  cases container <;> decide

end ApiManual
