import Sigil.Stencil.Tree

/-!
# Free names

The names that a routine takes from where it stands: those that its parts look up without having
bound them before. A name counts as bound as soon as an assignment to it begins, and what is bound
in a loop, a condition or a scope is bound in there alone. `blocksOf` finds the blocks of a stencil.
-/

namespace Sigil.Stencil

/-- What is known about names on the way through some parts. -/
structure Sighting where
  /-- The bound names, those of the innermost part first. -/
  bound : List (List String) := [[]]
  free : List String := []

abbrev Search := StateM Sighting

namespace Search

/-- A name bound in the innermost part. -/
def assign (name : String) : Search Unit :=
  modify fun s =>
    match s.bound with
    | [] => { s with bound := [[name]] }
    | names :: r => { s with bound := (name :: names) :: r }

/-- A name looked up. -/
def see (name : String) : Search Unit :=
  modify fun s =>
    if s.bound.any (·.contains name) || s.free.contains name then s
    else { s with free := s.free ++ [name] }

/-- A search of parts that keep what they bind to themselves. -/
def inside (search : Search Unit) : Search Unit := do
  modify fun s => { s with bound := [] :: s.bound }
  search
  modify fun s => { s with bound := s.bound.tail }

end Search

open Search

mutual

def Expr.search : Expr → Search Unit
  | .null | .bool _ | .whole _ | .decimal .. | .str _ | .undefined => return ()
  | .var s => see s
  | .list es => searchAll es
  | .dict ks vs => do
    searchAll ks
    searchAll vs
  | .member e _ => e.search
  | .index e key => do
    e.search
    key.search
  | .slice e start stop step => do
    e.search
    start.search
    stop.search
    step.search
  | .call callee args => do
    callee.search
    searchArgs args
  | .not e => e.search
  | .minus e => e.search
  | .and l r => do
    l.search
    r.search
  | .or l r => do
    l.search
    r.search
  | .binary _ l r => do
    l.search
    r.search
  | .compare first chain => do
    first.search
    searchChain chain
  | .cond test yes no => do
    test.search
    yes.search
    no.search
  | .filter _ e args => do
    e.search
    searchArgs args
  | .test _ e args => do
    e.search
    searchArgs args

def searchAll : List Expr → Search Unit
  | [] => return ()
  | e :: es => do
    e.search
    searchAll es

def searchArgs : List (Passing × Expr) → Search Unit
  | [] => return ()
  | (_, e) :: r => do
    e.search
    searchArgs r

def searchChain : List (Comparison × Expr) → Search Unit
  | [] => return ()
  | (_, e) :: r => do
    e.search
    searchChain r

end

mutual

def Target.assign : Target → Search Unit
  | .name s => Search.assign s
  | .member e _ => e.search
  | .tuple ts => assignAll ts

def assignAll : List Target → Search Unit
  | [] => return ()
  | t :: ts => do
    t.assign
    assignAll ts

end

def searchParameters (params : List Parameter) : Search Unit := do
  params.forM fun p => Search.assign p.name
  params.forM fun p => p.default.forM Expr.search

mutual

def Part.search : Part → Search Unit
  | .text _ | .embed .. | .require _ => return ()
  | .output e => e.search
  | .cond test yes no => do
    test.search
    inside (searchParts yes)
    inside (searchParts no)
  | .each target items condition _ body otherwise => do
    inside do
      Search.assign "loop"
      items.search
      target.assign
      condition.forM Expr.search
      searchParts body
    inside (searchParts otherwise)
  | .bind target e => do
    target.assign
    e.search
  | .bindText target _ body => do
    target.assign
    inside (searchParts body)
  | .scope bindings body =>
    inside do
      bindings.forM fun (target, e) => do
        target.assign
        e.search
      searchParts body
  | .filtered _ body => inside (searchParts body)
  | .escaped _ body => inside (searchParts body)
  | .block _ body =>
    inside do
      Search.assign "super"
      searchParts body
  | .routine name params body => do
    Search.assign name
    searchParameters params
    searchParts body
  | .callWith callee args params body => do
    callee.search
    searchArgs args
    searchParameters params
    searchParts body
  | .perform callee args => do
    callee.search
    searchArgs args

def searchParts : List Part → Search Unit
  | [] => return ()
  | p :: ps => do
    p.search
    searchParts ps

end

/-- The names that a routine takes from where it stands. -/
def freeNames (params : List Parameter) (body : List Part) : List String :=
  ((do
    searchParameters params
    searchParts body : Search Unit).run {}).2.free

mutual

def Part.blocks : Part → List (String × List Part)
  | .block name body => (name, body) :: blocksOf body
  | .cond _ yes no => blocksOf yes ++ blocksOf no
  | .each _ _ _ _ body otherwise => blocksOf body ++ blocksOf otherwise
  | .bindText _ _ body => blocksOf body
  | .scope _ body => blocksOf body
  | .filtered _ body => blocksOf body
  | .escaped _ body => blocksOf body
  | _ => []

def blocksOf : List Part → List (String × List Part)
  | [] => []
  | p :: ps => p.blocks ++ blocksOf ps

end

end Sigil.Stencil
