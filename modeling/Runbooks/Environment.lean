namespace Runbooks

structure Environment where
  user : Option String := none
  sshKey : Option String := none
  python : Option String := none
  /-- Whether commands run with raised rights. -/
  become : Option Bool := none
  deriving DecidableEq, Repr

namespace Environment

def empty : Environment := {}

instance : Inhabited Environment := ⟨empty⟩

def withUser (user : String) (e : Environment) : Environment :=
  { e with user := some user }

def withSshKey (path : String) (e : Environment) : Environment :=
  { e with sshKey := some path }

def withPython (path : String) (e : Environment) : Environment :=
  { e with python := some path }

def withBecome (value : Bool) (e : Environment) : Environment :=
  { e with become := some value }

def isEmpty (e : Environment) : Bool :=
  e.user.isNone && e.sshKey.isNone && e.python.isNone && e.become.isNone

/-- What `above` says, and `below` where it is silent. -/
def overlay (below above : Environment) : Environment where
  user := above.user <|> below.user
  sshKey := above.sshKey <|> below.sshKey
  python := above.python <|> below.python
  become := above.become <|> below.become

/-- The environment of a host that may override the common one. -/
def resolve (base : Environment) (override : Option Environment) : Environment :=
  match override with
  | some above => base.overlay above
  | none => base

end Environment

end Runbooks
