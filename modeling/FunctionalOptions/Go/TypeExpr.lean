import FunctionalOptions.Go.Direction
import FunctionalOptions.Go.Package

/-!
# Type Expressions

The types that the generator can print. A type is a predeclared name, a name
declared in some package, or built from other types; a function type lists its
parameters and results, whose last parameter may stand for any number of
arguments.

Equality of types looks through the short names of packages, since two
references to one path are one package. The fingerprint of a type is the
sequence of atoms a hash is taken over, and leaves the short names out for the
same reason.

## Main definitions

* `Param`: A parameter or result of a function type.
* `TypeExpr`: A type.
* `TypeExpr.same`: Equality up to the short names of packages.
* `TypeExpr.fingerprint`: What a hash is taken over.
* `TypeExpr.packages`: The packages a type refers to, in the order of its text.
-/

namespace FunctionalOptions

namespace Go

/-- A parameter or result of a function type. A variadic one carries the type
    of a single argument. -/
structure Param (τ : Type) where
  name : Option String
  type : τ
  variadic : Bool
deriving Repr

/-- A type. -/
inductive TypeExpr where
  | predeclared (name : String)
  | named (package : Option Package) (name : String)
  | pointer (elem : TypeExpr)
  | slice (elem : TypeExpr)
  | array (len : UInt64) (elem : TypeExpr)
  | channel (dir : Direction) (elem : TypeExpr)
  | map (key value : TypeExpr)
  | func (inputs outputs : List (Param TypeExpr))
deriving Repr, Inhabited

/-- Two optional packages are both absent or one package. -/
def samePackage : Option Package → Option Package → Bool
  | none, none => true
  | some p, some q => p.same q
  | _, _ => false

namespace TypeExpr

mutual

/-- Equality of types, up to the short names of packages. -/
def same : TypeExpr → TypeExpr → Bool
  | .predeclared a, .predeclared b => a == b
  | .named p a, .named q b => samePackage p q && a == b
  | .pointer a, .pointer b => a.same b
  | .slice a, .slice b => a.same b
  | .array m a, .array n b => m == n && a.same b
  | .channel d a, .channel e b => d == e && a.same b
  | .map k v, .map l w => k.same l && v.same w
  | .func is os, .func js ps => sameParams is js && sameParams os ps
  | _, _ => false

/-- Equality of parameter lists. -/
def sameParams : List (Param TypeExpr) → List (Param TypeExpr) → Bool
  | [], [] => true
  | a :: as, b :: bs => sameParam a b && sameParams as bs
  | _, _ => false

/-- Equality of parameters. -/
def sameParam : Param TypeExpr → Param TypeExpr → Bool
  | ⟨a, s, v⟩, ⟨b, t, w⟩ => a == b && s.same t && v == w

end

/-- A piece of a fingerprint. -/
inductive Atom where
  | kind (number : Nat)
  | count (number : Nat)
  | text (text : String)
deriving DecidableEq, Repr

/-- The fingerprint of an optional text. -/
def optionAtoms : Option String → List Atom
  | none => [.kind 0]
  | some text => [.kind 1, .text text]

/-- The number of a direction in a fingerprint. -/
def directionNumber : Direction → Nat
  | .recv => 0
  | .send => 1
  | .both => 2

mutual

/-- What a hash of a type is taken over. Every constructor announces itself and
    every list its length, so the sequence can be read back. -/
def fingerprint : TypeExpr → List Atom
  | .predeclared name => [.kind 0, .text name]
  | .named package name => .kind 1 :: optionAtoms (package.map (·.path)) ++ [.text name]
  | .pointer elem => .kind 2 :: elem.fingerprint
  | .slice elem => .kind 3 :: elem.fingerprint
  | .array len elem => .kind 4 :: .count len.toNat :: elem.fingerprint
  | .channel dir elem => .kind 5 :: .kind (directionNumber dir) :: elem.fingerprint
  | .map key value => .kind 6 :: key.fingerprint ++ value.fingerprint
  | .func inputs outputs =>
    .kind 7 :: .count inputs.length :: paramsFingerprint inputs ++
      .count outputs.length :: paramsFingerprint outputs

/-- The fingerprints of parameters, one after the other. -/
def paramsFingerprint : List (Param TypeExpr) → List Atom
  | [] => []
  | p :: ps => paramFingerprint p ++ paramsFingerprint ps

/-- The fingerprint of a parameter. -/
def paramFingerprint : Param TypeExpr → List Atom
  | ⟨name, type, variadic⟩ =>
    optionAtoms name ++ type.fingerprint ++ [.kind (if variadic then 1 else 0)]

end

mutual

/-- The packages a type refers to, in the order of its text and with
    repetitions. -/
def packages : TypeExpr → List Package
  | .predeclared _ => []
  | .named package _ => package.toList
  | .pointer elem => elem.packages
  | .slice elem => elem.packages
  | .array _ elem => elem.packages
  | .channel _ elem => elem.packages
  | .map key value => key.packages ++ value.packages
  | .func inputs outputs => paramsPackages inputs ++ paramsPackages outputs

/-- The packages of parameters, one after the other. -/
def paramsPackages : List (Param TypeExpr) → List Package
  | [] => []
  | p :: ps => paramPackages p ++ paramsPackages ps

/-- The packages of a parameter. -/
def paramPackages : Param TypeExpr → List Package
  | ⟨_, type, _⟩ => type.packages

end

end TypeExpr

end Go

end FunctionalOptions
