import Runbooks.CommandLine.Invocation
import Runbooks.Config.Loading
import Runbooks.Engine
import Runbooks.Session.Voice

namespace Runbooks

structure Context where
  machine : Machine
  config : Config
  voice : Voice := {}
  filter : Log.Filter := []
  layout : Log.Layout := .text false false

namespace Machine

/-- Whether output is coloured: never where colours are declined, else where they are demanded or
where people look at a terminal. -/
def colours (m : Machine) (declined : Bool) : Bool :=
  if declined || (m.vars "NO_COLOR").isSome then false
  else match m.vars "CLICOLOR_FORCE" with
    | some s => s ≠ "0" || (m.terminal && m.vars "CLICOLOR" ≠ some "0")
    | none => m.terminal && m.vars "CLICOLOR" ≠ some "0"

end Machine

namespace Log

/-- The level that a degree of verbosity asks for, if it asks for one. -/
def levelOfVerbosity? : Nat → Option String
  | 0 => none
  | 1 => some "info"
  | 2 => some "debug"
  | _ => some "trace"

/-- The filter of a session and the directives that it passes over. A variable of its own wins if
it is well-formed, then comes the verbosity, then the configured level. -/
def filterFor (vars : Variables) (verbosity : Nat) (level : String) : Filter × List String :=
  match (vars "RUST_LOG").bind Filter.ofText? with
  | some f => (f, [])
  | none => Filter.ofTextLossy ((levelOfVerbosity? verbosity).getD level)

/-- Targets are shown at the highest verbosity; colours can be switched off. -/
def layoutFor (vars : Variables) (verbosity : Nat) (format : LogFormat) : Layout :=
  match format with
  | .json => .json
  | .text => .text (decide (3 ≤ verbosity)) (((vars "NO_COLOR").getD "").isEmpty)

end Log

namespace Context

/-- Logs a line if it is wanted. -/
def say (x : Context) (l : Log.Line) : List Event :=
  if x.filter.wants l.level l.target then [.log (l.text x.layout x.machine.stamp)] else []

def sayAll (x : Context) (ls : List Log.Line) : List Event :=
  ls.flatMap x.say

end Context

end Runbooks
