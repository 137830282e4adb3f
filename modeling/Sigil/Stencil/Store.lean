import Sigil.Stencil.Tree
import Sigil.Stencil.Value

/-!
# The state of a stencil that is being written

Names are bound in frames: a loop, a scope, a block and a call of a routine have one of their own.
Spaces, loops and routines are objects that a store holds, so that all values that refer to one see
it change. A routine sees the names around it through a closure, which is filled when the routine is
defined and then follows every assignment in the frame that it was defined in.
-/

namespace Sigil.Stencil

abbrev Bindings := List (String × Value)

structure Frame where
  names : Bindings := []
  /-- The loop that the frame belongs to. -/
  loop : Option Nat := none
  /-- The closure that assignments in the frame go to as well. -/
  closure : Option Nat := none
  /-- The closure in which names are looked up that the frame does not bind. -/
  behind : Option Nat := none

structure Loop where
  items : Array Value
  /-- Whether the number of items was known beforehand. -/
  counted : Bool
  place : Nat
  depth : Nat
  /-- What the loop does for every item, if it may be entered again from inside. -/
  again : Option (Target × List Part)
  /-- What the loop was last asked about whether it has changed. -/
  asked : Option (List Value)

structure Routine where
  name : String
  params : List Parameter
  body : List Part
  /-- Whether the routine calls what a call passes to it as its parts. -/
  takesCaller : Bool
  closure : Option Nat

structure State where
  /-- The innermost frame comes first. -/
  frames : List Frame
  /-- How much of the depth that is allowed the calls around the frames take up. -/
  outer : Nat := 0
  out : String := ""
  /-- Whether markup in values is escaped. -/
  escaping : Bool := false
  blocks : List (String × List Part) := []
  spaces : Array (List (Value × Value)) := #[]
  loops : Array Loop := #[]
  routines : Array Routine := #[]
  closures : Array Bindings := #[]

abbrev Writing := StateT State Result

/-! ## Objects -/

def Loop.members (l : Loop) : List (Value × Value) :=
  let length := l.items.size
  let ifCounted (n : Nat) : Value := if l.counted then .int n else .undefined
  let neighbour (v : Option Value) : Value := v.getD .undefined
  [("index0", .int l.place), ("index", .int (l.place + 1)), ("length", ifCounted length),
    ("revindex", ifCounted (length - l.place)), ("revindex0", ifCounted (length - l.place - 1)),
    ("first", .bool (l.place == 0)), ("last", .bool (l.place + 1 == length)),
    ("depth", .int (l.depth + 1)), ("depth0", .int l.depth),
    ("previtem", neighbour (if l.place = 0 then none else l.items[l.place - 1]?)),
    ("nextitem", neighbour l.items[l.place + 1]?)].map fun (name, v) => (.ofText name, v)

def Routine.members (r : Routine) : List (Value × Value) :=
  [(.ofText "name", .ofText r.name),
    (.ofText "arguments", .ofList (r.params.map fun p => .ofText p.name)),
    (.ofText "caller", .bool r.takesCaller)]

namespace State

def membersOf (st : State) (r : Reference) (id : Nat) : List (Value × Value) :=
  match r with
  | .space => (st.spaces[id]?).getD []
  | .loop => (st.loops[id]?).elim [] Loop.members
  | .routine => (st.routines[id]?).elim [] Routine.members

/-- A value with what it holds now, if it is an object. -/
def glance (st : State) (v : Value) : Value :=
  match v with
  | .object r id _ => .object r id (st.membersOf r id)
  | v => v

/-- How many objects are looked up inside of each other. A space may hold itself. -/
def sightDepth : Nat := 10

/-- A value with what all objects in it hold now. -/
def look (st : State) : (depth : Nat) → Value → Value
  | 0, v => v
  | depth + 1, v =>
    v.withMembers fun r id => (st.membersOf r id).map fun m => (m.1, st.look depth m.2)

/-! ## Names -/

def lookupIn (st : State) (name : String) (f : Frame) : Option Value :=
  match f.names.lookup name, f.loop with
  | some v, _ => some v
  | none, some id =>
    if name = "loop" then some (.object .loop id []) else none
  | none, none => (f.behind.bind (st.closures[·]?)).bind (·.lookup name)

def builtins : List (String × Builtin) :=
  [Builtin.range, .dict, .space, .debug].map fun f => (Value.builtinName f, f)

def lookup? (st : State) (name : String) : Option Value :=
  (st.frames.findSome? (st.lookupIn name)).or ((builtins.lookup name).map .func)

def setName (name : String) (v : Value) (names : Bindings) : Bindings :=
  (name, v) :: names.filter (·.1 ≠ name)

def bindName (name : String) (v : Value) (st : State) : State :=
  match st.frames with
  | [] => st
  | f :: fs =>
    let closures := f.closure.elim st.closures fun id => st.closures.modify id (setName name v)
    { st with frames := { f with names := setName name v f.names } :: fs, closures := closures }

/-- What a name is bound to put into the closure of the innermost frame, unless it has the name. -/
def enclose (name : String) (st : State) : State :=
  match st.frames with
  | [] => st
  | f :: fs =>
    let (id, closures) := f.closure.elim (st.closures.size, st.closures.push []) (·, st.closures)
    let keep (names : Bindings) : Bindings :=
      if (names.lookup name).isSome then names
      else (st.lookup? name).elim names fun v => setName name v names
    { st with frames := { f with closure := some id } :: fs, closures := closures.modify id keep }

def innerLoop? (st : State) : Option Loop :=
  (st.frames.findSome? (·.loop)).bind (st.loops[·]?)

/-! ## Frames -/

def frameLimit : Nat := 500

/-- What a call of a routine takes up of the depth besides its frame. -/
def callCost : Nat := 4

def depth (st : State) : Nat := st.outer + st.frames.length

end State

namespace Writing

/-- What is written in a frame of its own. -/
def inFrame {α : Type} (f : Frame) (w : Writing α) : Writing α := do
  if State.frameLimit < (← get).depth then throw .tooDeep
  modify fun st => { st with frames := f :: st.frames }
  let x ← w
  modify fun st => { st with frames := st.frames.tail }
  return x

/-- What is written for a call of a routine, in a frame that sees none of those around the call. -/
def inCall {α : Type} (f : Frame) (w : Writing α) : Writing α := do
  let around ← get
  let outer := around.depth + State.callCost
  if State.frameLimit < outer + 1 then throw .tooDeep
  set { around with frames := [f], outer := outer, blocks := [] }
  let x ← w
  modify fun st =>
    { st with frames := around.frames, outer := around.outer, blocks := around.blocks }
  return x

def text (s : String) : Writing Unit := modify fun st => { st with out := st.out ++ s }

/-- The text that is written, as a value instead. It needs no more escaping if values in it were
escaped. -/
def capture (w : Writing Unit) : Writing Value := do
  let around := (← get).out
  modify fun st => { st with out := "" }
  w
  let st ← get
  set { st with out := around }
  return .str st.out st.escaping

/-- A value as it is now, if it is an object. -/
def glance (v : Value) : Writing Value := return (← get).glance v

/-- A value with all objects in it as they are now. -/
def look (v : Value) : Writing Value := return (← get).look State.sightDepth v

end Writing
end Sigil.Stencil
