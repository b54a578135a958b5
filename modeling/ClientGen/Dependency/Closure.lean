import ClientGen.Dependency
import ClientGen.SortedMap

/-!
# Closing over requirements

From the packages that generated code imports to all packages that are needed, one requirement
per import path. Requirements are taken breadth first. What a package requires is looked at once
for each version of it, so that a raised version brings in its own requirements.
-/

namespace ClientGen.Dependency

mutual

/-- The number of requirements in a dependency, itself included. -/
def weight : Dependency → Nat
  | ⟨_, _, _, _, _, requires⟩ => 1 + weightAll requires

/-- The number of requirements in a list of dependencies. -/
def weightAll : List Dependency → Nat
  | [] => 0
  | d :: rest => weight d + weightAll rest

end

/-- A package in a version, up to what precedence ignores. -/
structure Release where
  path : String
  version : Version
  deriving Repr

instance : Ord Release := ⟨compareLex (compareOn Release.path) (compareOn Release.version)⟩

instance : Std.TransOrd Release := inferInstanceAs (Std.TransCmp (compareLex _ _))

/-- What a step of the search does with the next requirement: it is merged with what is known for
its path. -/
def reconcile (resolved : SortedMap String Dependency) (next : Dependency) :
    Except GenError Dependency :=
  match resolved.find? next.importPath with
  | some existing => merge existing next
  | none => .ok next

/-- Searches from the queued requirements, given the releases that were looked at and the
requirements settled so far. The first argument bounds the number of requirements taken from the
queue. -/
def search : Nat → List Dependency → SortedSet Release → SortedMap String Dependency →
    Except GenError (SortedMap String Dependency)
  | 0, _, _, resolved => .ok resolved
  | _ + 1, [], _, resolved => .ok resolved
  | fuel + 1, next :: queue, expanded, resolved => do
    let merged ← reconcile resolved next
    let release : Release := ⟨merged.importPath, merged.version⟩
    let resolved := resolved.insert merged.importPath merged
    if expanded.contains release then search fuel queue expanded resolved
    else search fuel (queue ++ merged.requires) (expanded.insert release) resolved

/-- All packages that are needed, by import path. Only a requirement that is taken up brings in its
own requirements, so no more are queued than there are in the roots. -/
def closure (roots : List Dependency) : Except GenError (SortedMap String Dependency) :=
  search (weightAll roots + 1) roots .empty .empty

end ClientGen.Dependency
