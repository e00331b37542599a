/-!
# Branches

Files and directories by location. A location is the names on the way to it,
and a branch is a place with all that lies below it: what is at the place, if
anything is, and a smaller branch for every name. Whoever follows a path holds
the branch of the place reached, and a further name costs no more at the end of
a long path than at its beginning.

A branch says what is at each location and nothing more. It does not ask for a
directory above every entry, so an entry is set or taken out without a look at
any other location.

## Main definitions

* `Entry`: A file or a directory.
* `Branch`: Entries by location.
* `Branch.descend`: The branch at a location.
* `Branch.set`: A branch with another entry, or none, at a location.
* `Branch.entries`: The entries with their locations.

## Theorems

* `Branch.descend_append`: A location is followed in two parts.
* `Branch.entry_descend_set`: Setting an entry changes its location only.
-/

namespace FunctionalOptions

/-- The names on the way to a place. -/
abbrev Location := List String

/-- What is at a location. -/
inductive Entry where
  | file (contents : ByteArray)
  | directory

instance : DecidableEq Entry
  | .directory, .directory => isTrue rfl
  | .file _, .directory | .directory, .file _ => isFalse nofun
  | .file a, .file b =>
    match ByteArray.instDecidableEq a b with
    | isTrue h => isTrue (congrArg Entry.file h)
    | isFalse h => isFalse fun heq => h (Entry.file.inj heq)

/-- A place with all that lies below it. -/
inductive Branch where
  | node (entry : Option Entry) (children : List (String × Branch))

namespace Branch

/-- What is at the place itself. -/
def entry : Branch → Option Entry
  | node entry _ => entry

/-- The branches below, each with its name. -/
def children : Branch → List (String × Branch)
  | node _ children => children

/-- The branch with nothing in it. -/
def empty : Branch := node none []

/-- The branch of a name. -/
def child (branch : Branch) (name : String) : Branch :=
  (branch.children.lookup name).getD empty

/-- The branch at a location. -/
def descend : Branch → Location → Branch
  | branch, [] => branch
  | branch, name :: rest => (branch.child name).descend rest

/-- Put a branch into a list of them, in place of the one of its name. -/
def putChild (name : String) (branch : Branch) :
    List (String × Branch) → List (String × Branch)
  | [] => [(name, branch)]
  | other :: rest =>
    if other.1 = name then (name, branch) :: rest else other :: putChild name branch rest

/-- The branch with another branch for a name. -/
def withChild (branch : Branch) (name : String) (child : Branch) : Branch :=
  node branch.entry (putChild name child branch.children)

/-- The branch with an entry at a location, or with none. -/
def set : Branch → Location → Option Entry → Branch
  | branch, [], entry => node entry branch.children
  | branch, name :: rest, entry => branch.withChild name ((branch.child name).set rest entry)

mutual

/-- The entries of a branch with their locations. -/
def entries : Branch → List (Location × Entry)
  | node entry children => (entry.toList.map fun entry => ([], entry)) ++ entriesBelow children

/-- The entries of branches that have names, with their locations. -/
def entriesBelow : List (String × Branch) → List (Location × Entry)
  | [] => []
  | (name, branch) :: rest =>
    (branch.entries.map fun (location, entry) => (name :: location, entry)) ++ entriesBelow rest

end

/-- A location is followed in two parts. -/
theorem descend_append (branch : Branch) (first rest : Location) :
    branch.descend (first ++ rest) = (branch.descend first).descend rest := by
  induction first generalizing branch with
  | nil => rfl
  | cons name first ih => exact ih (branch.child name)

/-- What a list of branches has for each name once a branch is put into it. -/
theorem lookup_putChild (name other : String) (branch : Branch)
    (branches : List (String × Branch)) :
    (putChild name branch branches).lookup other =
      if other = name then some branch else branches.lookup other := by
  induction branches with
  | nil =>
    by_cases h : other = name
    · simp only [putChild, List.lookup_cons, h, beq_self_eq_true, if_true]
    · simp only [putChild, List.lookup_cons, beq_eq_false_iff_ne.mpr h, if_neg h]
  | cons first rest ih =>
    rcases first with ⟨key, value⟩
    unfold putChild
    by_cases hkey : key = name
    · by_cases h : other = name
      · simp only [hkey, if_true, List.lookup_cons, h, beq_self_eq_true]
      · simp only [hkey, if_true, List.lookup_cons, beq_eq_false_iff_ne.mpr h, if_neg h]
    · by_cases h : other = key
      · simp only [List.lookup_cons, h, beq_self_eq_true, if_neg hkey]
      · simp only [List.lookup_cons, beq_eq_false_iff_ne.mpr h, if_neg hkey, ih]

/-- What a branch has for each name once one of them has another branch. -/
theorem child_withChild (branch : Branch) (name : String) (new : Branch) (other : String) :
    (branch.withChild name new).child other = if other = name then new else branch.child other := by
  unfold child withChild children
  rw [lookup_putChild]
  by_cases h : other = name
  · rw [if_pos h, if_pos h, Option.getD_some]
  · rw [if_neg h, if_neg h]

/-- Setting an entry changes its location only. -/
theorem entry_descend_set (branch : Branch) (location : Location) (entry : Option Entry)
    (other : Location) :
    ((branch.set location entry).descend other).entry =
      if other = location then entry else (branch.descend other).entry := by
  induction location generalizing branch other with
  | nil =>
    cases other with
    | nil => rfl
    | cons name rest => rw [if_neg (List.cons_ne_nil name rest)]; rfl
  | cons name location ih =>
    cases other with
    | nil => rw [if_neg (List.cons_ne_nil name location).symm]; rfl
    | cons first rest =>
      unfold set descend
      rw [child_withChild]
      by_cases h : first = name
      · subst h
        rw [if_pos rfl, ih]
        simp only [List.cons.injEq, true_and]
      · rw [if_neg h, if_neg fun heq => h (List.cons.inj heq).1]

end Branch

end FunctionalOptions
