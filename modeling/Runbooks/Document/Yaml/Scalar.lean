import Runbooks.Document.Tree
import Runbooks.Document.Yaml.Text

namespace Runbooks.Yaml

def isNullWord (s : String) : Bool :=
  ["null", "Null", "NULL", "~"].contains s

def flagWord? (s : String) : Option Bool :=
  if ["true", "True", "TRUE"].contains s then some true
  else if ["false", "False", "FALSE"].contains s then some false
  else none

/-- A sign, and what stands after it. -/
def dropSign (s : List Char) : List Char :=
  match s with
  | '+' :: r => r
  | '-' :: r => r
  | r => r

/-- Digits that start with a needless zero name no number. -/
def hasLeadingZero (s : List Char) : Bool :=
  let r := dropSign s
  r.length > 1 && r.head? = some '0' && r.all isDigit

def basedNat? (s : List Char) : Option Nat :=
  match s with
  | '0' :: 'x' :: r => readNat? 16 r
  | '0' :: 'o' :: r => readNat? 8 r
  | '0' :: 'b' :: r => readNat? 2 r
  | r => if hasLeadingZero r then none else readNat? 10 r

/-- A whole number, in decimal or with the mark of another base. -/
def integer? (s : List Char) : Option Int :=
  match s with
  | '+' :: r => (basedNat? r).map fun n => n
  | '-' :: r => (basedNat? r).map fun n => -n
  | r => (basedNat? r).map fun n => n

/-- A number with a fraction or a power of ten, or a name for one that has none. Numerals too
large for a number are texts. -/
def float? (s : List Char) : Option Binary64 :=
  let unsigned := match s with
    | '+' :: r => r
    | r => r
  let doubled := match s with
    | '+' :: '+' :: _ => true
    | '+' :: '-' :: _ => true
    | _ => false
  if doubled then none
  else if [".inf", ".Inf", ".INF"].contains (String.ofList unsigned) then some (.infinite false)
  else if ["-.inf", "-.Inf", "-.INF"].contains (String.ofList s) then some (.infinite true)
  else if [".nan", ".NaN", ".NAN"].contains (String.ofList s) then some .nan
  else match Binary64.ofNumeral? unsigned with
    | some (.infinite _) => none
    | n => n

/-- Integers fit in 64 bits with or without a sign; a larger one of up to 128 bits is no value of
any kind. -/
def wordRange (n : Int) : Bool :=
  -Int.pow 2 63 ≤ n && n < Int.pow 2 64

def doubleWordRange (n : Int) : Bool :=
  -Int.pow 2 127 ≤ n && n < Int.pow 2 128

/-- An integer as a value; `none` says that the scalar is no integer. -/
def integerAtom? (s : List Char) : Option (Option Atom) :=
  match integer? s with
  | none => none
  | some n =>
    if wordRange n then some (some (.int n))
    else if doubleWordRange n then some none
    else none

/-- The value of a plain scalar. -/
def plainAtom? (s : String) : Option Atom :=
  if s.isEmpty || isNullWord s then some .null
  else match flagWord? s with
    | some b => some (.bool b)
    | none =>
      match integerAtom? s.toList with
      | some value => value
      | none =>
        if hasLeadingZero s.toList then some (.text s)
        else match float? s.toList with
          | some x => some (.float x)
          | none => some (.text s)

def nullTag : String := "tag:yaml.org,2002:null"
def boolTag : String := "tag:yaml.org,2002:bool"
def intTag : String := "tag:yaml.org,2002:int"
def floatTag : String := "tag:yaml.org,2002:float"

/-- A tag of the application, as opposed to one of the standard. -/
def localTag? (tag : Option String) : Option String :=
  match tag with
  | none => none
  | some t => if t.toList.head? = some '!' then some t else none

/-- The value of a scalar with its tag. -/
def atom? (tag : Option String) (style : Style) (s : String) : Option Atom :=
  let untagged := if style = .plain then plainAtom? s else some (.text s)
  match tag with
  | none => untagged
  | some t =>
    if t = boolTag then (flagWord? s).map .bool
    else if t = intTag then (integerAtom? s.toList).bind id
    else if t = floatTag then (float? s.toList).map .float
    else if t = nullTag then if isNullWord s then some .null else none
    else if (localTag? tag).isSome then untagged
    else some (.text s)

/-- The alternative that a scalar names: its text, or its own tag where it is empty besides. -/
def choice? (tag : Option String) (style : Style) (s : String) : Option String :=
  match localTag? tag with
  | none => some s
  | some t =>
    if style = .plain && (s.isEmpty || isNullWord s) then
      some (if t.length > 1 then String.ofList (t.toList.drop 1) else t)
    else none

def presence (tag : Option String) (style : Style) (s : String) : Presence :=
  if style ≠ .plain then .present
  else if tag = some nullTag then if isNullWord s then .absent else .contradictory
  else if tag.isSome then .present
  else if s.isEmpty || isNullWord s then .absent
  else .present

/-- Truth values and counts are plain, or literal with the tag of the type. -/
def leaf (tag : Option String) (style : Style) (s : String) : Leaf :=
  let typed (t : String) : Bool := style = .plain || (style = .literal && tag = some t)
  { text? := some s
    flag? := if typed boolTag then flagWord? s else none
    count? := if typed intTag then (integer? s.toList).bind unsigned? else none
    choice? := choice? tag style s
    atom? := atom? tag style s
    presence := presence tag style s
    hollow := style = .plain && s.isEmpty }
where
  /-- Numbers with a minus sign are no counts, not even zero. -/
  unsigned? (n : Int) : Option Nat :=
    if n < 0 || s.toList.head? = some '-' || !wordRange n then none else some n.toNat

end Runbooks.Yaml
