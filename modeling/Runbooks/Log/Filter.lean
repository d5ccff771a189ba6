import Runbooks.Text.Blank
import Runbooks.Text.Digits

/-!
Which log lines are wanted. A filter is a list of directives, each of which admits lines up to a
level, for all targets or for those whose name starts in a certain way. The most specific
directive that is about a target decides.
-/

namespace Runbooks.Log

inductive Level where
  | error
  | warn
  | info
  | debug
  | trace
  deriving DecidableEq, Repr

namespace Level

def name : Level → String
  | error => "ERROR"
  | warn => "WARN"
  | info => "INFO"
  | debug => "DEBUG"
  | trace => "TRACE"

/-- How talkative a level is. -/
def rank : Level → Nat
  | error => 1
  | warn => 2
  | info => 3
  | debug => 4
  | trace => 5

end Level

/-- Lines for targets that start with `target`, up to a rank. -/
structure Directive where
  target : String
  rank : Nat
  deriving DecidableEq, Repr

/-- Levels by name, whatever the case, or by number; nothing at all stands for errors only. -/
def rankOfText? (s : String) : Option Nat :=
  match readNat? 10 s.toList with
  | some n => if n ≤ 5 then some n else none
  | none =>
    match lowerAscii s with
    | "" => some 1
    | "off" => some 0
    | "error" => some 1
    | "warn" => some 2
    | "info" => some 3
    | "debug" => some 4
    | "trace" => some 5
    | _ => none

def isDirectiveStart (c : Char) : Bool :=
  c.isAlphanum || c = '-' || c = ':' || c = '_' || c.toNat ≥ 0x80

namespace Directive

/-- What stands before a character, and what stands from there on. -/
def cutAt (p : Char → Bool) (s : List Char) : List Char × List Char :=
  (s.takeWhile (!p ·), s.dropWhile (!p ·))

/-- A level for all targets, a target with all its lines, or a target with a level. A directive
about spans is well-formed, but no line stands in a span. -/
def ofText? (text : String) : Option (List Directive) :=
  let s := trimBlanks text.toList
  match cutAt (fun c => c = '=' || c = '[') s with
  | ([], '[' :: _) => if s.contains ']' then some [] else none
  | (target, rest) =>
    if !(target.head?.any isDirectiveStart) then none
    else match rest with
      | [] =>
        match rankOfText? (String.ofList target) with
        | some rank => some [⟨"", rank⟩]
        | none => some [⟨String.ofList target, 5⟩]
      | '=' :: level =>
        (rankOfText? (String.ofList level)).map fun rank => [⟨String.ofList target, rank⟩]
      | _ => if s.contains ']' then some [] else none

def isAbout (d : Directive) (target : String) : Bool :=
  d.target.toList.isPrefixOf target.toList

end Directive

abbrev Filter := List Directive

namespace Filter

/-- The directives of a text, which are separated by commas. -/
def pieces (s : String) : List String :=
  (s.splitOn ",").filter (!·.isEmpty)

/-- The filter that a text gives if all its directives are well-formed. -/
def ofText? (s : String) : Option Filter :=
  ((pieces s).mapM Directive.ofText?).map List.flatten

/-- The filter of the well-formed directives, and the others. Without any, errors are wanted. -/
def ofTextLossy (s : String) : Filter × List String :=
  let wellFormed := (pieces s).filterMap Directive.ofText?
  let others := (pieces s).filter fun p => (Directive.ofText? p).isNone
  (if wellFormed.isEmpty then [⟨"", 1⟩] else wellFormed.flatten, others)

/-- Of two directives that are about a target, the later one where they are equally specific. -/
def stronger (best : Option Directive) (d : Directive) : Option Directive :=
  match best with
  | none => some d
  | some b => if b.target.length ≤ d.target.length then some d else some b

def wants (f : Filter) (level : Level) (target : String) : Bool :=
  match (f.filter (·.isAbout target)).foldl stronger none with
  | some d => level.rank ≤ d.rank
  | none => false

end Filter

end Runbooks.Log
