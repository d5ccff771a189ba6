import Runbooks.CommandLine.Usage
import Runbooks.Config.Override

/-!
Reading a command line word by word. A value is only looked at when the next option or argument
is complete, or when the words end; so of two mistakes the one that is understood first counts.
Words are well-formed Unicode; no others can be said.
-/

namespace Runbooks.CommandLine

/-- What a value is given to. -/
inductive Slot where
  | switch (s : Switch)
  | positional (p : Positional)
  deriving DecidableEq

namespace Slot

def key : Slot → String
  | switch s => s.long
  | positional p => p.key

def text : Slot → String
  | switch s => s.text
  | positional p => p.text

end Slot

/-- The values of an option or argument, and whether the command line itself gives them. -/
structure Given where
  key : String
  values : List String
  explicit : Bool := true
  deriving DecidableEq, Repr

/-- What a command line has given so far, and what it is about to give. -/
structure Matches where
  given : List Given := []
  pending : Option (Slot × List String) := none

/-- Why a command line leads to no command. -/
inductive Stop where
  | complaint (s : Spec) (c : Complaint)
  | help (s : Spec) (long : Bool)
  | version (s : Spec)
  /-- No words at all: the help text goes to where complaints go. -/
  | briefing

namespace Matches

def has (m : Matches) (key : String) : Bool :=
  m.given.any (·.key = key)

def find? (m : Matches) (key : String) : Option Given :=
  m.given.find? (·.key = key)

def add (g : Given) (m : Matches) : Matches :=
  { m with given := m.given.filter (·.key ≠ g.key) ++ [g] }

/-- Whether an option stands without the value that it takes. -/
def awaits (m : Matches) : Bool :=
  match m.pending with
  | some (.switch _, []) => true
  | _ => false

end Matches

def checkValue (kind : ValueKind) (argument value : String) : Except Complaint Unit :=
  match kind with
  | .path => if value.isEmpty then .error (.missingValue argument) else .ok ()
  | .text => .ok ()
  | .mode =>
    match InventoryMode.ofText? value with
    | .ok _ => .ok ()
    | .error f => .error (.invalidValue argument value (some f.message) [])
  | .choice cs =>
    if cs.any (·.name = value) then .ok () else .error (.invalidValue argument value none cs)

/-- Gives values to a slot, which takes them once. -/
def Matches.give (slot : Slot) (values : List String) (m : Matches) : Except Complaint Matches := do
  let once : Except Complaint Unit :=
    if m.has slot.key then .error (.repeated slot.text) else .ok ()
  match slot with
  | .switch s =>
    match s.effect with
    | .count =>
      let before := (m.find? s.long).elim [] Given.values
      return m.add ⟨s.long, "" :: before, true⟩
    | .value _ kind =>
      if values.isEmpty then .error (.missingValue s.text)
      else do
        once
        values.forM (checkValue kind s.text)
        return m.add ⟨s.long, values, true⟩
    | _ => do
      once
      return m.add ⟨s.long, [], true⟩
  | .positional p => do
    once
    values.forM (checkValue p.kind p.text)
    return m.add ⟨p.key, values, true⟩

/-- Gives what is pending. -/
def Matches.resolve (m : Matches) : Except Complaint Matches :=
  match m.pending with
  | none => .ok m
  | some (slot, values) => Matches.give slot values { m with pending := none }

namespace Spec

def complain {α : Type} (s : Spec) : Except Complaint α → Except Stop α
  | .ok a => .ok a
  | .error c => .error (.complaint s c)

/-- An option is complete. -/
def react (spec : Spec) (s : Switch) (long : Bool) (values : List String) (m : Matches) :
    Except Stop Matches := do
  let m ← spec.complain m.resolve
  match s.effect with
  | .help => .error (.help spec long)
  | .version => .error (.version spec)
  | _ => spec.complain (m.give (.switch s) values)

/-- An option whose value is the next word. -/
def await (spec : Spec) (s : Switch) (m : Matches) : Except Stop Matches := do
  let m ← spec.complain m.resolve
  return { m with pending := some (.switch s, []) }

def unexpected {α : Type} (spec : Spec) (argument : String) : Except Stop α :=
  .error (.complaint spec (.unexpected argument))

/-- A word behind two dashes: the name of an option, and maybe its value behind an equals sign. -/
def longOption (spec : Spec) (word : List Char) (m : Matches) : Except Stop Matches :=
  let name := String.ofList (word.takeWhile (· ≠ '='))
  let value := match word.dropWhile (· ≠ '=') with
    | [] => none
    | _ :: v => some (String.ofList v)
  match spec.switches.find? (·.long = name), value with
  | none, _ => spec.unexpected ("--" ++ name)
  | some s, some v =>
    if s.valueName?.isSome then spec.react s true [v] m
    else .error (.complaint spec (.surplusValue s.text v))
  | some s, none => if s.valueName?.isSome then spec.await s m else spec.react s true [] m

/-- Letters behind a dash: options without values, and one with a value at the end at most. -/
def shortOptions (spec : Spec) : List Char → Matches → Except Stop Matches
  | [], m => .ok m
  | c :: rest, m =>
    match spec.switches.find? (·.short = some c) with
    | none => spec.unexpected (String.ofList ['-', c])
    | some s =>
      if s.valueName?.isSome then
        match rest with
        | [] => spec.await s m
        | '=' :: v => spec.react s false [String.ofList v] m
        | v => spec.react s false [String.ofList v] m
      else do
        let m ← spec.react s false [] m
        spec.shortOptions rest m

/-- A word that is no option: the value of the argument at this position. -/
def argument (spec : Spec) (position : Nat) (behindDashes : Bool) (word : String) (m : Matches) :
    Except Stop (Matches × Nat) :=
  let last := spec.positionals.length - 1
  let position :=
    if behindDashes && spec.positionals.any (·.rest) then last else position
  match spec.positionals[position]? with
  | none =>
    if spec.isProgram && !(behindDashes && (command? word).isSome) then
      .error (.complaint spec (.unknownCommand word))
    else spec.unexpected word
  | some p =>
    if p.rest && !behindDashes then spec.unexpected word
    else match m.pending with
      | some (.positional q, values) =>
        if q = p && p.rest then
          .ok ({ m with pending := some (.positional p, values ++ [word]) }, position)
        else do
          let m ← spec.complain m.resolve
          return ({ m with pending := some (.positional p, [word]) },
            if p.rest then position else position + 1)
      | _ => do
        let m ← spec.complain m.resolve
        return ({ m with pending := some (.positional p, [word]) },
          if p.rest then position else position + 1)

def isLongWord (word : List Char) : Bool :=
  word.take 2 = ['-', '-'] && word.length > 2

def isShortWord (word : List Char) : Bool :=
  word.head? = some '-' && word.length > 1

/-- The command whose help is asked for by a list of names. -/
def helpFor (names : List String) : Except Stop Unit :=
  match names with
  | [] => .error (.help program true)
  | name :: more =>
    match command? name, more with
    | none, _ => .error (.complaint program (.unknownCommand name))
    | some s, [] => .error (.help s true)
    | some s, other :: _ => .error (.complaint s (.unknownCommand other))

/-- Reads words up to a command, if there can be one, and gives that command and its words. -/
def scan (spec : Spec) (position : Nat) (behindDashes : Bool) :
    List String → Matches → Except Stop (Matches × Option (Spec × List String))
  | [], m => .ok (m, none)
  | word :: rest, m =>
    let cs := word.toList
    if behindDashes then do
      let (m, position) ← spec.argument position true word m
      spec.scan position true rest m
    else
      let called := if spec.isProgram && !m.awaits then command? word else none
      match called with
      | some c =>
        if c.name = help.name then do
          helpFor rest
          return (m, none)
        else .ok (m, some (c, rest))
      | none =>
        if word = "--" then spec.scan position true rest m
        else if isLongWord cs then do
          let m ← spec.longOption (cs.drop 2) m
          spec.scan position false rest m
        else if isShortWord cs then do
          let m ← spec.shortOptions (cs.drop 1) m
          spec.scan position false rest m
        else match m.pending with
          | some (.switch s, []) =>
            spec.scan position false rest { m with pending := some (.switch s, [word]) }
          | _ => do
            let (m, position) ← spec.argument position false word m
            spec.scan position false rest m

/-- Takes the values of environment variables where the command line gives none. -/
def addVariables (vars : Variables) : List Switch → Matches → Except Complaint Matches
  | [], m => .ok m
  | s :: rest, m =>
    match s.variableName.bind vars, s.effect with
    | some v, .value _ kind =>
      if m.has s.long then addVariables vars rest m
      else do
        checkValue kind s.text v
        addVariables vars rest (m.add ⟨s.long, [v], false⟩)
    | _, _ => addVariables vars rest m

/-- What a command line has given when its words are over. -/
def complete (vars : Variables) (spec : Spec) (m : Matches) : Except Stop Matches := do
  let m ← spec.complain m.resolve
  let m ← spec.complain (addVariables vars spec.switches m)
  let missing := spec.positionals.filter fun p => !p.rest && !m.has p.key
  if missing.isEmpty then return m
  else .error (.complaint spec (.missingArguments (missing.map Positional.text)))

end Spec

/-- What a command line gives to the program and to the command that it calls. -/
structure Call where
  spec : Spec
  outer : Matches
  inner : Matches

namespace Call

def read (vars : Variables) (words : List String) : Except Stop Call := do
  let program := Spec.program
  match ← program.scan 0 false words {} with
  | (m, none) =>
    let m ← program.complete vars m
    if m.given.isEmpty then .error .briefing
    else .error (.complaint program .missingCommand)
  | (outer, some (spec, rest)) =>
    let (inner, _) ← spec.scan 0 false rest {}
    let inner ← spec.complete vars inner
    let outer ← program.complete vars outer
    return { spec, outer, inner }

/-- What is given for a key: behind the command, else in front of it, else by a variable. -/
def find? (c : Call) (key : String) : Option Given :=
  match c.inner.find? key, c.outer.find? key with
  | some i, some o => if o.explicit && !i.explicit then some o else some i
  | some i, none => some i
  | none, o => o

def value? (c : Call) (key : String) : Option String :=
  (c.find? key).bind fun g => g.values.head?

def values (c : Call) (key : String) : List String :=
  (c.find? key).elim [] Given.values

def has (c : Call) (key : String) : Bool :=
  (c.find? key).isSome

end Call

end Runbooks.CommandLine
