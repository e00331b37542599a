/-!
# Packages

A package is known by the path it is imported under. Its short name, the one
that qualifies names in source text, is usually the last segment of the path
and sometimes is not, so it is kept beside the path. Two references to one path
are references to one package whatever short names they carry.

## Main definitions

* `Package`: A path with a short name.
* `lastSegment`: What follows the last slash of a path.
* `Package.ofPath`: The package whose short name is the usual one.
* `Package.same`: Two references lead to one package.
* `Package.distinct`: The packages of a list, each one once and in order.
-/

namespace FunctionalOptions

namespace Go

/-- A reference to a package. -/
structure Package where
  path : String
  name : String
deriving DecidableEq, Repr

/-- What follows the last slash of a path, or the whole path if it has none. -/
def lastSegment (path : String) : String :=
  String.ofList (path.toList.reverse.takeWhile (· ≠ '/')).reverse

namespace Package

/-- The package whose short name is the last segment of its path. -/
def ofPath (path : String) : Package :=
  ⟨path, lastSegment path⟩

/-- Two references lead to one package. -/
def same (p q : Package) : Bool :=
  p.path == q.path

/-- Put a package into a list in ascending order of paths, unless its path is
    there. -/
def insertOrdered (package : Package) : List Package → List Package
  | [] => [package]
  | other :: rest =>
    if package.path < other.path then package :: other :: rest
    else if package.path = other.path then other :: rest
    else other :: insertOrdered package rest

/-- The packages of a list in ascending order of paths. Of several references
    to one package the first one counts. -/
def distinct (packages : List Package) : List Package :=
  packages.foldl (fun ordered package => insertOrdered package ordered) []

end Package

end Go

end FunctionalOptions
