import Runbooks.Config.Layer
import Runbooks.Config.Override
import Runbooks.Source

namespace Runbooks

namespace Layer

/-- The notation of a configuration file, by its extension. -/
def formatOf (path : String) : Notation :=
  match Path.extension? path with
  | some "yml" => .yaml
  | some "yaml" => .yaml
  | some "json" => .json
  | _ => .toml

/-- The layer in a text. In YAML a document that stands for nothing sets nothing. -/
def ofText? (n : Notation) (source : String) : Option Layer := do
  let t ← n.readTree? source
  if n = .yaml then (t.optional? ofTree?).map (·.getD {}) else ofTree? t

end Layer

namespace Config

def unread (path : String) (e : SystemError) : Failure :=
  .other ("Failed to read config file: " ++ path) [e.message]

def unparsed (path : String) (n : Notation) : Failure :=
  .other ("Failed to parse config file: " ++ path) [n.complaint]

/-- Merges a configuration file, which has to be there. -/
def mergeFile (d : Disk) (cwd : Place) (c : Config) (path : String) : Except Failure Config :=
  match d.read cwd path with
  | .error e => .error (unread path e)
  | .ok source =>
    match Layer.ofText? (Layer.formatOf path) source with
    | some l => .ok (c.merge l)
    | none => .error (unparsed path (Layer.formatOf path))

/-- The configuration in one file, without overrides. -/
def ofFile (d : Disk) (cwd : Place) (path : String) : Except Failure Config :=
  mergeFile d cwd {} path

def systemPath : String := "/etc/runbook-cli/config.toml"

def projectPath : String := ".runbook-cli.toml"

/-- The home directory: a variable names it before the system does, and neither by an empty text. -/
def homeDir? (vars : Variables) (home : Option String) : Option String :=
  ((vars "HOME").filter (!·.isEmpty)).or (home.filter (!·.isEmpty))

/-- The directory for the user's own configuration files. -/
def userDir? (vars : Variables) (home : Option String := none) : Option String :=
  ((vars "XDG_CONFIG_HOME").filter Path.isAbsolute).or
    ((homeDir? vars home).map (Path.join · ".config"))

/-- The files that may hold a part of the configuration, the strongest last. -/
def paths (vars : Variables) (explicit : Option String) (home : Option String := none) :
    List String :=
  match explicit with
  | some path => [path]
  | none =>
    systemPath :: ((userDir? vars home).map (Path.join · "runbook-cli/config.toml")).toList ++
      [projectPath]

/-- Merges the files that are there. -/
def mergeFiles (d : Disk) (cwd : Place) : List String → Config → Except Failure Config
  | [], c => .ok c
  | path :: rest, c =>
    if d.exists? cwd path then do
      let c ← mergeFile d cwd c path
      mergeFiles d cwd rest c
    else mergeFiles d cwd rest c

/-- The configuration for a command; `home` is the home directory that the system knows of. -/
def load (d : Disk) (cwd : Place) (vars : Variables) (explicit : Option String)
    (home : Option String := none) : Except Failure Config := do
  let c ← mergeFiles d cwd (paths vars explicit home) {}
  match applyOverrides vars c with
  | (none, c) => .ok c
  | (some f, _) => .error f

end Config

end Runbooks
