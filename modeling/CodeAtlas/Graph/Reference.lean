import CodeAtlas.Node

/-!
# References between declarations

While the files of a project are walked, what a declaration says about other declarations is only a name.
A `Reference` keeps it until all files have been seen.
-/

namespace CodeAtlas

/-- The clause of a type declaration that names a supertype. -/
inductive SuperClause where
  | superclass
  | interface
  | mixin
  deriving DecidableEq, Repr

/-- **Where a declaration lives.** Names are looked up in the same file first, then in the same scope. -/
structure Origin where
  file : String := ""
  /-- The package, library or module of the file. -/
  scope : Option String := none
  /-- The id of the type that the declaration is a member of. -/
  owner : Option String := none
  deriving DecidableEq, Repr

/-- What an import names. -/
structure ImportTarget where
  path : String
  member : Option String
  wildcard : Bool
  deriving DecidableEq, Repr

/-- **Something that a declaration says about another one**, which is known by name only. Sources,
members, owners and callers are ids of nodes; a file is a path. -/
inductive Reference where
  | supertype (source name : String) (clause : SuperClause)
  /-- An extension and the type that it extends. -/
  | extension (source receiver : String)
  /-- A member that overrides one of the same name in a supertype of its owner. -/
  | overriding (member owner name : String)
  | annotated (source name : String)
  | call (caller callee : String) (qualifier : Option String) (line : Nat)
  | importing (file : String) (language : Language) (target : ImportTarget) (line : Nat)
      (statement : String)
  deriving DecidableEq, Repr

/-- Whether a reference goes to a type. These are resolved first, so that the others find the hierarchy
complete. -/
def Reference.isHierarchy : Reference → Bool
  | .supertype .. => true
  | .extension .. => true
  | _ => false

end CodeAtlas
