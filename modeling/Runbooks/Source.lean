import Runbooks.Document.Json.Reader
import Runbooks.Document.Toml.Reader
import Runbooks.Document.Yaml.Reader
import Runbooks.Draft.Reader

/-!
Runbook sources: texts in one of three notations. A source of unknown notation is tried as TOML
first and as YAML then; where both fail, the TOML error is the one to report.
-/

namespace Runbooks

inductive Notation where
  | toml
  | yaml
  | json
  deriving DecidableEq, Repr

namespace Notation

/-- The tree of a text. -/
def readTree? : Notation → String → Option Tree
  | toml => Toml.readTree?
  | yaml => Yaml.readTree?
  | json => Json.readTree?

/-- What is said of a text that is no document of the notation. -/
def complaint : Notation → String
  | toml => "TOML syntax error"
  | yaml => "YAML parsing error"
  | json => "JSON parsing error"

end Notation

/-- The notation of a source, if it is known. -/
abbrev SourceFormat := Option Notation

namespace SourceFormat

def auto : SourceFormat := none

/-- By the extension of a file's name. -/
def ofExtension (extension : Option String) : SourceFormat :=
  match extension with
  | some "toml" => some .toml
  | some "yml" => some .yaml
  | some "yaml" => some .yaml
  | some "json" => some .json
  | _ => auto

def name : SourceFormat → String
  | some .toml => "toml"
  | some .yaml => "yaml"
  | some .json => "json"
  | none => "auto"

end SourceFormat

namespace Draft

def ofText? (n : Notation) (source : String) : Except Notation Draft :=
  match n.readTree? source >>= ofTree? with
  | some d => .ok d
  | none => .error n

/-- The draft in a source, or the notation whose error is to be reported. -/
def parse (format : SourceFormat) (source : String) : Except Notation Draft :=
  match format with
  | some n => ofText? n source
  | none =>
    match ofText? .toml source with
    | .ok d => .ok d
    | .error n =>
      match ofText? .yaml source with
      | .ok d => .ok d
      | .error _ => .error n

end Draft

namespace Runbook

/-- The failure of a source that is no document. -/
def unreadable (origin : String) (n : Notation) : Failure :=
  .source origin n.complaint [n.complaint]

/-- The runbook in a source that comes from `origin`. -/
def parse (format : SourceFormat) (origin source : String) : Except Failure Runbook :=
  match Draft.parse format source with
  | .ok d => d.runbook?
  | .error n => .error (unreadable origin n)

end Runbook

end Runbooks
