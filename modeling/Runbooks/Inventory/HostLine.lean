import Runbooks.Text.Blank
import Runbooks.Text.Shell

namespace Runbooks

inductive Connection where
  | ssh
  | local
  deriving DecidableEq, Repr

namespace Connection

def text : Connection → String
  | ssh => "ssh"
  | .local => "local"

end Connection

structure HostLine where
  address : String
  vars : List (String × String) := []
  deriving DecidableEq, Repr

namespace HostLine

def userVar : String := "ansible_user"
def sshKeyVar : String := "ansible_ssh_private_key_file"
def pythonVar : String := "ansible_python_interpreter"
def becomeVar : String := "ansible_become"
def connectionVar : String := "ansible_connection"

/-- The pairs with a value for a key: in its old place, or at the end when the key is new. -/
def put (key value : String) : List (String × String) → List (String × String)
  | [] => [(key, value)]
  | (k, v) :: rest => if k = key then (k, value) :: rest else (k, v) :: put key value rest

/-- Sets a variable; an absent value leaves the line as it is. -/
def set (key : String) (value : Option String) (l : HostLine) : HostLine :=
  match value with
  | some v => { l with vars := put key v l.vars }
  | none => l

def get? (key : String) (l : HostLine) : Option String :=
  l.vars.lookup key

/-- Whether a character of a value asks for quotes. -/
def needsQuotes (c : Char) : Bool :=
  isBlank c || c = '\'' || c = '"' || c = '\\' || c = '#' || c = ';'

/-- A value as it stands behind the equals sign. -/
def valueChars (value : List Char) : List Char :=
  if value.isEmpty || value.any needsQuotes then Shell.quoteChars value else value

def varChars (var : String × String) : List Char :=
  ' ' :: (var.1.toList ++ '=' :: valueChars var.2.toList)

/-- The line without a line break at its end. -/
def text (l : HostLine) : String :=
  String.ofList (l.address.toList ++ l.vars.flatMap varChars)

end HostLine

end Runbooks
