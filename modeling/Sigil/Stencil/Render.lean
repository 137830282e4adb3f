import Sigil.Stencil.Filter
import Sigil.Stencil.FreeNames
import Sigil.Stencil.Function
import Sigil.Stencil.Reader
import Sigil.Stencil.Store

/-!
# The text of a stencil

`render` evaluates a stencil for some given names. Every call takes up some of a depth that is
limited, and between calls the evaluation only goes further down in the stencil, so fuel in
proportion to the length of the stencil is enough.
-/

namespace Sigil.Stencil

namespace Writing

def output (v : Value) : Writing Unit := do
  let v ← look v
  if (← get).escaping then text (Filter.escape v).text else text v.text

def isTrue (v : Value) : Writing Bool := return (← glance v).isTrue

/-- What a loop over a value goes through now. -/
def iterate (v : Value) : Writing (List Value) := do (← glance v).iterate

def callBuiltin (f : Builtin) (args : List Value) : Writing Value := do
  let args ← args.mapM look
  match f with
  | .range => Builtin.callRange.run args
  | .dict => Builtin.callDict.run args
  | .debug => Builtin.callDebug.run args
  | .space =>
    let ms ← Builtin.spaceMembers.run args
    let st ← get
    set { st with spaces := st.spaces.push ms }
    return .object .space st.spaces.size ms

/-- What a loop is asked for besides its members. -/
def callLoop (id : Nat) (name : String) (args : List Value) : Writing Value := do
  let args ← args.mapM look
  match (← get).loops[id]?, name, args with
  | some l, "cycle", v :: vs => return (v :: vs)[l.place % (vs.length + 1)]?.getD .undefined
  | some l, "changed", vs =>
    modify fun st => { st with loops := st.loops.modify id fun l => { l with asked := some vs } }
    return .bool (!l.asked.any (Value.sameItems vs))
  | _, _, _ => throw (.unknown name)

def setMember (x : Value) (name : String) (v : Value) : Writing Unit := do
  match x with
  | .object .space id _ =>
    let set (ms : List (Value × Value)) : List (Value × Value) :=
      (Value.put (.ofText name) v ms).mergeSort fun a b => a.1.order b.1 != .gt
    modify fun st => { st with spaces := st.spaces.modify id set }
  | _ => throw .badTarget

def define (name : String) (params : List Parameter) (body : List Part) : Writing Value := do
  let free := freeNames params body
  (free.filter (· ≠ "caller")).forM fun s => modify (State.enclose s)
  let st ← get
  let r : Routine := ⟨name, params, body, free.contains "caller", st.frames.head?.bind (·.closure)⟩
  set { st with routines := st.routines.push r }
  return .object .routine st.routines.size r.members

/-- The other stencils of a name. There are none, so this fails unless they may be missing. -/
def embed (name : Value) (optional : Bool) : Writing Unit := do
  let name ← glance name
  let choices :=
    match name with
    | .func _ => []
    | v => (v.items?).getD [v]
  for choice in choices do
    if choice.text?.isNone then throw .badArguments
  if !choices.isEmpty && !optional then throw (.unknown name.text)

def escapesIn (mode : Value) : Result Bool :=
  match mode with
  | .str s _ =>
    if s = "html" then .ok true else if s = "none" then .ok false else .error .badArguments
  | v => .ok (v.same (.bool true))

end Writing

/-- The values of a routine's parameters, and the routine that it may call as its parts. -/
def Routine.assign (r : Routine) (args : List Value) : Result (List Value × Value) := do
  let (plain, named) :=
    match args.getLast? with
    | some (.dict ms true) => (args.dropLast, ms)
    | _ => (args, [])
  if r.params.length < plain.length then throw .badArguments
  let known := (r.params.drop plain.length).map (·.name) ++ if r.takesCaller then ["caller"] else []
  if !named.all (fun m => m.1.text?.any known.contains) then throw .badArguments
  let passed (name : String) : Value := (Value.memberNamed name named).getD .undefined
  return (plain ++ (r.params.drop plain.length).map (passed ·.name), passed "caller")

open Writing

mutual

def evaluate : (fuel : Nat) → Expr → Writing Value
  | 0, _ => throw .tooDeep
  | n + 1, e => do
    match e with
    | .null => return .null
    | .bool b => return .bool b
    | .whole k => return .int k
    | .decimal digits exponent => return .float (Decimal.Double.ofDecimal false digits exponent)
    | .str s => return .ofText s
    | .undefined => return .undefined
    | .var s => return ((← get).lookup? s).getD .undefined
    | .list es => return .ofList (← es.mapM (evaluate n))
    | .dict ks vs =>
      let ms ← (ks.zip vs).mapM fun (k, v) => do
        let k ← evaluate n k
        return (k, ← evaluate n v)
      return .dict (Value.putAll [] ms) false
    | .member e name => member (← glance (← evaluate n e)) name
    | .index e key =>
      let x ← glance (← evaluate n e)
      index x (← evaluate n key)
    | .slice e start stop step =>
      let x ← evaluate n e
      let start ← evaluate n start
      let stop ← evaluate n stop
      slice x start stop (← evaluate n step)
    | .call callee args => call n callee args []
    | .not e => return .bool !(← isTrue (← evaluate n e))
    | .minus e => negated (← evaluate n e)
    | .and l r =>
      let x ← evaluate n l
      if ← isTrue x then evaluate n r else return x
    | .or l r =>
      let x ← evaluate n l
      if ← isTrue x then return x else evaluate n r
    | .binary op l r =>
      let x ← evaluate n l
      let y ← evaluate n r
      op.apply (← look x) (← look y)
    | .compare first chain => return .bool (← compareChain n (← evaluate n first) chain)
    | .cond test yes no =>
      if ← isTrue (← evaluate n test) then evaluate n yes else evaluate n no
    | .filter name e args =>
      let x ← evaluate n e
      filterValue n name x args
    | .test name e args =>
      let x ← evaluate n e
      let values ← arguments n args []
      if name = "sameas" && e.isPassed args then return .bool true
      return .bool (← Predicate.apply name (← look x) (← values.mapM look))

def compareChain : (fuel : Nat) → Value → List (Comparison × Expr) → Writing Bool
  | 0, _, _ => throw .tooDeep
  | _, _, [] => return true
  | n + 1, x, (op, e) :: r => do
    let y ← evaluate n e
    if ← op.holds (← look x) (← look y) then compareChain n y r else return false

/-- The values that are passed, the named ones last as one dictionary. -/
def arguments : (fuel : Nat) → Args → (more : List (Value × Value)) → Writing (List Value)
  | 0, _, _ => throw .tooDeep
  | n + 1, args, more => do
    let mut values : List Value := []
    let mut named : List (Value × Value) := []
    for (passing, e) in args do
      let v ← evaluate n e
      match passing with
      | .positional => values := values ++ [v]
      | .items => values := values ++ (← iterate v)
      | .named name => named := Value.put (.ofText name) v named
      | .members =>
        match (← glance v).members? with
        | some ms => named := Value.putAll named ms
        | none => throw .badArguments
    let isNamed := args.any fun (passing, _) =>
      match passing with
      | .named _ | .members => true
      | _ => false
    return if isNamed || !more.isEmpty then values ++ [.dict (Value.putAll named more) true]
      else values

def filterValue : (fuel : Nat) → (name : String) → Value → Args → Writing Value
  | 0, _, _, _ => throw .tooDeep
  | n + 1, name, x, args => do
    let args ← arguments n args []
    Filter.apply name (← look x) (← args.mapM look)

def filterAll : (fuel : Nat) → Value → List FilterCall → Writing Value
  | 0, _, _ => throw .tooDeep
  | _, x, [] => return x
  | n + 1, x, f :: fs => do filterAll n (← filterValue n f.name x f.args) fs

def call : (fuel : Nat) → (callee : Expr) → Args → (more : List (Value × Value)) → Writing Value
  | 0, _, _, _ => throw .tooDeep
  | n + 1, callee, args, more => do
    match callee with
    | .var "loop" =>
      match ← arguments n args more with
      | [x] => enterAgain n x
      | _ => throw .badArguments
    | .var name =>
      let args ← arguments n args more
      match (← get).lookup? name with
      | some f => invoke n f args
      | none => throw (.unknown name)
    | .member (.var "self") name =>
      match (← get).blocks.lookup name with
      | some body => capture (inFrame {} (renderParts n body))
      | none => throw (.unknown name)
    | .member e name =>
      let x ← glance (← evaluate n e)
      let args ← arguments n args more
      match x with
      | .object .loop id _ => callLoop id name args
      | x =>
        match x.members?.bind (Value.memberNamed name) with
        | some f => invoke n f args
        | none => throw (.unknown name)
    | callee =>
      let f ← evaluate n callee
      invoke n f (← arguments n args more)

def invoke : (fuel : Nat) → Value → List Value → Writing Value
  | 0, _, _ => throw .tooDeep
  | n + 1, f, args => do
    match f with
    | .func f => callBuiltin f args
    | .object .routine id _ =>
      match (← get).routines[id]? with
      | some r =>
        let (values, caller) ← r.assign args
        capture <| inCall { behind := r.closure } do
          if r.takesCaller then modify (State.bindName "caller" caller)
          for (p, v) in (r.params.zip values).reverse do
            let v ←
              match v, p.default with
              | .undefined, some e => evaluate n e
              | v, _ => pure v
            modify (State.bindName p.name v)
          renderParts n r.body
      | none => throw .notCallable
    | _ => throw .notCallable

def bind : (fuel : Nat) → Target → Value → Writing Unit
  | 0, _, _ => throw .tooDeep
  | n + 1, target, v => do
    match target with
    | .name s => modify (State.bindName s v)
    | .member e name => setMember (← evaluate n e) name v
    | .tuple ts =>
      match (← glance v).items? with
      | some vs =>
        if vs.length ≠ ts.length then throw .cannotUnpack
        (ts.zip vs).forM fun (t, v) => bind n t v
      | none => throw .cannotUnpack

def renderLoop : (fuel : Nat) → Target → (items : List Value) → (counted : Bool) →
    (again : Bool) → (body : List Part) → Writing Unit
  | 0, _, _, _, _, _ => throw .tooDeep
  | n + 1, target, items, counted, again, body => do
    let st ← get
    let id := st.loops.size
    let depth :=
      match st.innerLoop? with
      | some l => if l.again.isSome then l.depth + 1 else 0
      | none => 0
    let l : Loop := ⟨items.toArray, counted, 0, depth, if again then some (target, body) else none,
      none⟩
    set { st with loops := st.loops.push l }
    inFrame { loop := some id } do
      for (x, k) in items.zipIdx do
        modify fun st =>
          { st with
            frames := { loop := some id } :: st.frames.tail
            loops := st.loops.modify id fun l => { l with place := k } }
        bind n target x
        renderParts n body

/-- The innermost loop for the items of a value. -/
def enterAgain : (fuel : Nat) → Value → Writing Value
  | 0, _ => throw .tooDeep
  | n + 1, x => do
    match (← get).innerLoop?.bind (·.again) with
    | some (target, body) =>
      let items ← iterate x
      capture (renderLoop n target items (!x.isStream) true body)
    | none => throw .notCallable

def renderPart : (fuel : Nat) → Part → Writing Unit
  | 0, _ => throw .tooDeep
  | n + 1, p => do
    match p with
    | .text s => text s
    | .output e => output (← evaluate n e)
    | .cond test yes no =>
      if ← isTrue (← evaluate n test) then renderParts n yes else renderParts n no
    | .each target items condition again body otherwise =>
      let x ← evaluate n items
      let all ← iterate x
      let (kept, counted) ←
        match condition with
        | none => pure (all, !x.isStream)
        | some e =>
          let kept ← inFrame {} <| all.filterM fun x => do
            modify fun st => { st with frames := {} :: st.frames.tail }
            bind n target x
            isTrue (← evaluate n e)
          pure (kept, true)
      if kept.isEmpty then renderParts n otherwise
      else renderLoop n target kept counted again body
    | .bind target e => bind n target (← evaluate n e)
    | .bindText target filters body =>
      let v ← filterAll n (← capture (renderParts n body)) filters
      bind n target v
    | .scope bindings body =>
      inFrame {} do
        bindings.forM fun (target, e) => do bind n target (← evaluate n e)
        renderParts n body
    | .filtered filters body =>
      output (← filterAll n (← capture (renderParts n body)) filters)
    | .escaped mode body =>
      let outer := (← get).escaping
      let escaping ← escapesIn (← evaluate n mode)
      modify fun st => { st with escaping := escaping }
      renderParts n body
      modify fun st => { st with escaping := outer }
    | .block _ body => inFrame {} (renderParts n body)
    | .embed e optional => embed (← evaluate n e) optional
    | .require e => throw (.unknown (← evaluate n e).text)
    | .routine name params body =>
      let f ← define name params body
      modify (State.bindName name f)
    | .callWith callee args params body =>
      let f ← define "caller" params body
      output (← call n callee args [(.ofText "caller", f)])
    | .perform callee args =>
      let _ ← call n callee args []

def renderParts : (fuel : Nat) → List Part → Writing Unit
  | 0, _ => throw .tooDeep
  | n + 1, ps => ps.forM (renderPart n)

end

/-- Fuel for all calls that the depth allows, each of which goes down through all of the stencil. -/
def fuelFor (source : String) : Nat := State.frameLimit * (20 * (source.length + 10))

def render (given : Bindings) (source : String) : Result String :=
  match read source with
  | none => .error .malformed
  | some ps =>
    let st : State := { frames := [{ names := given }], blocks := blocksOf ps }
    ((renderParts (fuelFor source) ps).run st).map fun r => r.2.out

end Sigil.Stencil
