import Sigil.Render.Encoding
import Sigil.Stencil.Format
import Sigil.Stencil.Predicate
import Sigil.Text.Blank

/-!
# Filters

What an expression can make of a value by the name of a filter. A filter or a test that has no name
here is an error when it is used.
-/

namespace Sigil.Stencil

open Text Decimal

/-- A filter of a value that takes further arguments. -/
abbrev Filter := Value → Taker Value

namespace Filter

def simple (f : Value → Result Value) : Filter := fun x => f x

def ofText (f : List Char → List Char) : Filter := fun x =>
  return .ofChars (f (← x.argumentText).toList)

/-- What a filter makes of a value it has no use for. -/
def unfit {α : Type} : Result α := .error .badOperands

/-! ## Texts -/

/-- A text with its markup, and slashes, replaced by entities. -/
def escapeText (s : String) : String :=
  String.ofList (s.toList.flatMap fun c =>
    if c = '/' then "&#x2f;".toList else Render.encodeChar c)

/-- A value as text that needs no escaping. -/
def escape (x : Value) : Value :=
  match x with
  | .str s true => .str s true
  | x => .str (escapeText x.text) true

/-- Whether a character is ASCII and neither a letter, a digit, a blank nor a control character. -/
def isPunctuation (c : Char) : Bool := '!' ≤ c && c ≤ '~' && !c.isAlphanum

def titleText : (atStart : Bool) → List Char → List Char
  | _, [] => []
  | atStart, c :: r =>
    if isPunctuation c || isBlank c then c :: titleText true r
    else (if atStart then upperChar c else lowerChar c) ++ titleText false r

/-- Every occurrence of a word replaced; the empty word occurs around all characters. -/
def replaceText (word by_ s : List Char) : List Char :=
  if h : word = [] then by_ ++ s.flatMap (· :: by_) else replaceAll word h by_ s

def trimSet (set s : List Char) : List Char :=
  dropEndWhile set.contains (s.dropWhile set.contains)

/-- Texts one after the other, with a separator behind those that are not all empty. -/
def joinTexts (sep : String) (xs : List Value) : String :=
  xs.foldl (fun s x => (if s.isEmpty then s else s ++ sep) ++ x.text) ""

/-- The parts between the first blanks of a text. -/
def blankFields : (count : Nat) → List Char → List (List Char)
  | 0, s => [s]
  | n + 1, s =>
    match s.dropWhile (!isBlank ·) with
    | [] => [s]
    | _ :: r => s.takeWhile (!isBlank ·) :: blankFields n r

def wordsOf (s : List Char) : List (List Char) :=
  (blankFields s.length s).filter (!·.isEmpty)

/-- The parts between separators; the empty separator stands around all characters. -/
def piecesOf (sep s : List Char) : List (List Char) :=
  if h : sep = [] then [] :: s.map ([·]) ++ [[]] else pieces sep h s

/-- Parts, of which all behind some number are put together again. -/
def limitPieces (sep : List Char) (count : Nat) (ps : List (List Char)) : List (List Char) :=
  if ps.length ≤ count + 1 then ps else ps.take count ++ [join sep (ps.drop count)]

/-- The parts of a text, cut at most some number of times. -/
def splitText (sep : Option (List Char)) (count : Option Nat) (s : List Char) : List (List Char) :=
  match sep, count with
  | none, none => wordsOf s
  | none, some n => blankFields n s
  | some sep, none => piecesOf sep s
  | some sep, some n => limitPieces sep n (piecesOf sep s)

def dropLastEnd (s : List Char) : List Char := dropReturn ((before? ['\n'] s).getD s)

/-- A text with blanks in front of its lines; in front of the first line and of empty ones only on
request. -/
def indentText (width : Nat) (first blank : Bool) (s : List Char) : List Char :=
  let deep (line : List Char) : List Char :=
    if line.isEmpty && !blank then line else List.replicate width ' ' ++ line
  let lines :=
    match fields '\n' (dropLastEnd s) with
    | [] => []
    | l :: ls => (if first then deep l else l) :: ls.map deep
  dropLastEnd (join ['\n'] lines ++ ['\n'])

def texts (ps : List (List Char)) (kind : ListKind) : Value := .list (ps.map .ofChars) kind

def split : Filter := fun x => do
  let s ← x.stringArgument
  let sep ← Taker.optional Value.stringArgument
  let count ← Taker.optional (Value.intArgument 64)
  let count := count.bind fun n => if n < 0 then none else some n.toNat
  return texts (splitText (sep.map String.toList) count s.toList) .stream

def placedOrNamed {α : Type} (f : Value → Result α) (name : String) (ms : List (Value × Value))
    (otherwise : α) : Taker α := do
  match ← Taker.any?, Taker.named? name ms with
  | some v, _ => f v
  | none, some v => f v
  | none, none => return otherwise

def indent : Filter := fun x => do
  let ms ← Taker.members
  Taker.checkNames ["width", "first", "blank"] ms
  let s ← x.argumentText
  let width ← placedOrNamed Value.countArgument "width" ms 4
  let first ← placedOrNamed Value.flagArgument "first" ms false
  let blank ← placedOrNamed Value.flagArgument "blank" ms false
  return .ofChars (indentText width first blank s.toList)

/-! ## Numbers -/

def absolute : Value → Result Value
  | .int n => if n = -bound127 then .error .outOfRange else .ok (.int n.natAbs)
  | .float x => .ok (.float x.abs)
  | _ => unfit

def wholeText? (s : List Char) : Option Int :=
  let whole (negative : Bool) (ds : List Char) : Option Int :=
    let n : Int := if negative then -ofDigits ds else ofDigits ds
    if ds.isEmpty || !ds.all Char.isDigit then none
    else if -bound127 ≤ n ∧ n < bound127 then some n
    else none
  match s with
  | '-' :: r => whole true r
  | '+' :: r => whole false r
  | s => whole false s

def wholePart (x : Float) : Value := .int (Double.clamp (-bound127) (bound127 - 1) x)

def toInt : Value → Result Value
  | .undefined | .null => .ok (.int 0)
  | .bool b => .ok (.int (if b then 1 else 0))
  | .int n => .ok (.int n)
  | .float x => .ok (wholePart x)
  | .str s _ =>
    match wholeText? s.toList, Double.read? s.toList with
    | some n, _ => .ok (.int n)
    | none, some x => .ok (wholePart x)
    | none, none => unfit
  | _ => unfit

def toFloat : Value → Result Value
  | .undefined | .null => .ok (.float 0.0)
  | .str s _ => (Double.read? s.toList).elim unfit fun x => .ok (.float x)
  | v => v.float?.elim unfit fun x => .ok (.float x)

def round : Filter := fun x => do
  let places ← Taker.optional (Value.intArgument 32)
  match x with
  | .int n => return .int n
  | .float x =>
    let scale := Double.powInt 10.0 (places.getD 0)
    return .float ((scale * x).round / scale)
  | _ => unfit

def sumOf (xs : List Value) : Result Value :=
  xs.foldlM (fun total x =>
    match x with
    | .undefined => .ok total
    | x => if x.isNumber then sum total x else unfit) (.int 0)

/-! ## Order -/

/-- The order of two values, of texts maybe without regard to the case of ASCII letters. -/
def orderFolded (sensitive : Bool) (x y : Value) : Ordering :=
  match sensitive, x.text?, y.text? with
  | false, some s, some t => compare s.toLower t.toLower
  | _, _, _ => x.order y

def sortOn (sensitive : Bool) (xs : List (Value × Value)) : List (Value × Value) :=
  xs.mergeSort fun a b => orderFolded sensitive a.1 b.1 != .gt

/-- Values with what lies behind a path in each. -/
def withKeys (path : Option String) (other : Value) (xs : List Value) : List (Value × Value) :=
  xs.map fun x => (path.elim x fun p => followPathOr x p other, x)

def flagNamed (name : String) (ms : List (Value × Value)) : Result Bool :=
  match Taker.named? name ms with
  | some v => v.flagArgument
  | none => .ok false

def stringNamed (name : String) (ms : List (Value × Value)) : Result (Option String) :=
  match Taker.named? name ms with
  | some v => v.stringArgument.map some
  | none => .ok none

def pair (m : Value × Value) : Value := .ofList [m.1, m.2]

def membersOf (x : Value) : Result (List (Value × Value)) := x.members?.elim unfit .ok

def dictSort : Filter := fun x => do
  let ms ← membersOf x
  let names ← Taker.members
  let byValue ←
    match ← stringNamed "by" names with
    | none | some "key" => pure false
    | some "value" => pure true
    | some _ => throw .badArguments
  let sensitive ← flagNamed "case_sensitive" names
  let reverse ← flagNamed "reverse" names
  Taker.checkNames ["by", "case_sensitive", "reverse"] names
  let keyed := ms.map fun m => (if byValue then m.2 else m.1, pair m)
  let sorted := (sortOn sensitive keyed).map (·.2)
  return .ofList (if reverse then sorted.reverse else sorted)

def sort : Filter := fun x => do
  let names ← Taker.members
  let xs ← x.iterate
  let sensitive ← flagNamed "case_sensitive" names
  let path ← stringNamed "attribute" names
  let reverse ← flagNamed "reverse" names
  Taker.checkNames ["attribute", "case_sensitive", "reverse"] names
  let sorted := (sortOn sensitive (withKeys path .undefined xs)).map (·.2)
  return .ofList (if reverse then sorted.reverse else sorted)

/-- The items that come with a key that no item in front of them comes with. -/
def distinct (xs : List (Value × Value)) : List Value :=
  let step (acc : List Value × List Value) (x : Value × Value) : List Value × List Value :=
    if acc.1.any x.1.sameKey then acc else (x.1 :: acc.1, x.2 :: acc.2)
  (xs.foldl step ([], [])).2.reverse

def unique : Filter := fun x => do
  let names ← Taker.members
  let path ← stringNamed "attribute" names
  let sensitive ← flagNamed "case_sensitive" names
  Taker.checkNames ["attribute", "case_sensitive"] names
  let fold (k : Value) : Value :=
    match k with
    | .str s _ => if sensitive then k else .ofChars (lowerText s.toList)
    | k => k
  return .ofList (distinct ((withKeys path .undefined (← x.iterate)).map fun x => (fold x.1, x.2)))

/-- Neighbours with one key as groups. A group has the key of its last item. -/
def groups (sensitive : Bool) : List (Value × Value) → List Value
  | [] => []
  | [(k, x)] => [.group k [x]]
  | (k, x) :: (l, y) :: r =>
    match orderFolded sensitive k l, groups sensitive ((l, y) :: r) with
    | .eq, .group key xs :: gs => .group key (x :: xs) :: gs
    | _, gs => .group k [x] :: gs

def groupBy : Filter := fun x => do
  let names ← Taker.members
  let path ← Taker.optional Value.stringArgument
  let other := (Taker.named? "default" names).getD .undefined
  let sensitive ← flagNamed "case_sensitive" names
  let known := ["default", "case_sensitive"]
  let path ←
    match path with
    | some p => do
      Taker.checkNames known names
      pure p
    | none => do
      Taker.checkNames ("attribute" :: known) names
      match Value.memberNamed "attribute" names with
      | some v => v.stringArgument
      | none => throw .badArguments
  return .ofList (groups sensitive (sortOn sensitive (withKeys (some path) other (← x.iterate))))

/-- The first of the items that come before all others. -/
def least (xs : List Value) : Value :=
  match xs with
  | [] => .undefined
  | x :: xs => xs.foldl (fun best y => if y.order best == .lt then y else best) x

/-- The last of the items that come after all others. -/
def greatest (xs : List Value) : Value :=
  match xs with
  | [] => .undefined
  | x :: xs => xs.foldl (fun best y => if y.order best == .lt then best else y) x

/-! ## Lists -/

def first : Value → Result Value
  | .str s _ => .ok ((Value.characters s).head?.getD .undefined)
  | x => x.items?.elim unfit fun xs => .ok (xs.head?.getD .undefined)

def last : Value → Result Value
  | .str s _ => .ok ((Value.characters s).getLast?.getD .undefined)
  | x => if x.isListLike then .ok (((x.items?.getD []).getLast?).getD .undefined) else unfit

def reverse (x : Value) : Result Value :=
  match x with
  | .undefined | .null => .ok x
  | .str s _ => .ok (.ofChars s.toList.reverse)
  | x => x.items?.elim unfit fun xs => .ok (.ofLazy xs.reverse)

/-- Items in lists of some length; the last one is filled up if there is something to fill it with.
-/
def batches (count : Nat) (fill : Option Value) (xs : List Value) : List Value :=
  (List.range ((xs.length + count - 1) / count)).map fun k =>
    let ys := (xs.drop (count * k)).take count
    .ofList (ys ++ fill.elim [] (List.replicate (count - ys.length)))

/-- Items in some number of lists, the first of which may have one item more; the others have one
more if there is something to fill them with. -/
def portions (count : Nat) (fill : Option Value) (xs : List Value) : List Value :=
  let (least, more) := (xs.length / count, xs.length % count)
  (List.range count).map fun k =>
    let ys := (xs.drop (k * least + min k more)).take (if k < more then least + 1 else least)
    .ofList (ys ++ if k < more then [] else fill.toList)

/-- A filter that puts items into lists of a count that is not zero. -/
def listsOf (f : Nat → Option Value → List Value → List Value) : Filter := fun x => do
  let count ← Taker.required Value.countArgument
  let fill ← Taker.any?
  if count = 0 then throw .badArguments
  return .ofList (f count fill (← x.iterate))

/-- The members of several dictionaries in the order of their keys; the last one of a key counts. -/
def merge (mss : List (List (Value × Value))) : List (Value × Value) :=
  sortOn true (mss.foldl Value.putAll [])

/-- What a loop over each of some values goes through. -/
def iterateAll (xs : List Value) : Result (List (List Value)) := xs.mapM Value.iterate

def chain : Filter := fun x => do
  let xs := x :: (← Taker.rest)
  match xs.mapM Value.members? with
  | some mss => return .dict (merge mss) false
  | none =>
    let items := (← iterateAll xs).flatten
    return .list items (if xs.all (·.rank == 5) then .whole else .stream)

def zipItems (xss : List (List Value)) : List Value :=
  let count := ((xss.map List.length).min?).getD 0
  (List.range count).map fun k => .ofList (xss.filterMap (·[k]?))

def zip : Filter := fun x => do
  return .list (zipItems (← iterateAll (x :: (← Taker.rest)))) .stream

/-! ## Names -/

/-- Another value in place of an undefined one, and on request of one that does not count as true.
-/
def default : Filter := fun x => do
  let other ← Taker.any?
  let lax ← Taker.optional Value.flagArgument
  return if x.rank == 0 || lax == some true && !x.isTrue then other.getD (.ofText "") else x

/-- The filters that look at nothing but values. -/
def plain : List (String × Filter) := [
  ("safe", fun x => return .str (← x.argumentText) true),
  ("escape", simple fun x => .ok (escape x)),
  ("e", simple fun x => .ok (escape x)),
  ("string", simple fun x => .ok (if x.rank == 4 then x else .ofText x.text)),
  ("upper", ofText upperText),
  ("lower", ofText lowerText),
  ("capitalize", ofText capitalText),
  ("title", ofText (titleText true)),
  ("replace", fun x => do
    let s ← x.argumentText
    let word ← Taker.required Value.argumentText
    let by_ ← Taker.required Value.argumentText
    return .ofChars (replaceText word.toList by_.toList s.toList)),
  ("trim", fun x => do
    let s := (← x.argumentText).toList
    let set ← Taker.optional Value.argumentText
    return .ofChars (set.elim (trim s) fun cs => trimSet cs.toList s)),
  ("split", split),
  ("lines", fun x => return texts (lines (← x.stringArgument).toList) .whole),
  ("indent", indent),
  ("format", fun x => do
    let names ← Taker.members
    return .ofText (← Format.format (← x.argumentText) (← Taker.rest) names)),
  ("pprint", simple fun x => .ok (.ofText (x.wideText 0))),
  ("join", fun x => do
    let sep ← Taker.optional Value.argumentText
    return .ofText (joinTexts (sep.getD "") (← x.iterate))),
  ("length", simple fun x => x.length?.elim unfit fun n => .ok (.int n)),
  ("count", simple fun x => x.length?.elim unfit fun n => .ok (.int n)),
  ("default", default),
  ("d", default),
  ("bool", simple fun x => .ok (.bool x.isTrue)),
  ("int", simple toInt),
  ("float", simple toFloat),
  ("abs", simple absolute),
  ("round", round),
  ("sum", simple fun x => do sumOf (← x.iterate)),
  ("attr", fun x => do index x (← Taker.any)),
  ("items", simple fun x => return .ofList ((← membersOf x).map pair)),
  ("dictsort", dictSort),
  ("sort", sort),
  ("unique", unique),
  ("groupby", groupBy),
  ("min", simple fun x => return least (← x.iterate)),
  ("max", simple fun x => return greatest (← x.iterate)),
  ("list", simple fun x => return .ofList (← x.iterate)),
  ("first", simple first),
  ("last", simple last),
  ("reverse", simple reverse),
  ("batch", listsOf batches),
  ("slice", listsOf portions),
  ("chain", chain),
  ("zip", zip)]

/-- The filters that apply other filters or tests to items. -/
def overItems : List String := ["map", "select", "reject", "selectattr", "rejectattr"]

def isKnown (name : String) : Bool := (plain.lookup name).isSome || overItems.contains name

end Filter

def Predicate.apply (name : String) (x : Value) (args : List Value) : Result Bool :=
  match Predicate.plain.lookup name, name with
  | some t, _ => (t x).run args
  | none, "filter" => Taker.run (do return Filter.isKnown (← x.stringArgument)) args
  | none, "test" => Taker.run (do return Predicate.isKnown (← x.stringArgument)) args
  | none, name => .error (.unknown name)

namespace Filter

/-- The items for which a condition on what lies behind a path in each is met or not. -/
def keep (wanted : Bool) (path : Option String) (holds : Value → Result Bool) (xs : List Value) :
    Result (List Value) :=
  xs.filterM fun x => do
    let v ← path.elim (pure x) (followPath x)
    return (← holds v) == wanted

/-- The items for which a test holds or not, or those that count as true. -/
def select (wanted : Bool) (path : Option String) (x : Value) : Taker Value := do
  let test ← Taker.optional Value.argumentText
  let args ← Taker.rest
  match test with
  | some name =>
    if !Predicate.isKnown name then throw (.unknown name)
    return .ofList (← keep wanted path (Predicate.apply name · args) (← x.iterate))
  | none => return .ofList (← keep wanted path (fun v => return v.isTrue) (← x.iterate))

/-- The items for which a test of what lies behind a path holds or not. -/
def selectBehind (wanted : Bool) (x : Value) : Taker Value := do
  let path ← Taker.required Value.argumentText
  select wanted (some path) x

def mapKey (key : Value) (other : Value) (xs : List Value) : Result (List Value) :=
  xs.mapM fun x =>
    match key.text?.elim (index x key) (followPath x) with
    | .ok .undefined => .ok other
    | .ok v => .ok v
    | .error e => if other.rank == 0 then .error e else .ok other

/-- Every item behind a filter, or what a key leads to in it. -/
def map (filter : String → Value → List Value → Result Value) (x : Value) : Taker Value := do
  let names ← Taker.members
  let args ← Taker.rest
  match Taker.named? "attribute" names, args with
  | some key, [] =>
    let other := (Value.memberNamed "default" names).getD .undefined
    return .ofList (← mapKey key other (← x.iterate))
  | some _, _ :: _ => throw .badArguments
  | none, name :: args =>
    let name ← name.stringArgument
    if !isKnown name then throw (.unknown name)
    return .ofList (← (← x.iterate).mapM fun y => filter name y args)
  | none, [] => throw .badArguments

/-- A value behind a filter. A filter that applies another one passes fewer arguments on than it was
passed, so their number is enough fuel. -/
def applyFor : (fuel : Nat) → (name : String) → Value → List Value → Result Value
  | 0, _, _, _ => .error .badArguments
  | fuel + 1, name, x, args =>
    match plain.lookup name, name with
    | some f, _ => (f x).run args
    | none, "map" => (map (applyFor fuel) x).run args
    | none, "select" => (select true none x).run args
    | none, "reject" => (select false none x).run args
    | none, "selectattr" => (selectBehind true x).run args
    | none, "rejectattr" => (selectBehind false x).run args
    | none, name => .error (.unknown name)

def apply (name : String) (x : Value) (args : List Value) : Result Value :=
  applyFor (args.length + 1) name x args

end Filter
end Sigil.Stencil
