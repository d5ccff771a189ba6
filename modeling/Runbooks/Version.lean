namespace Runbooks

def programName : String := "runbook"

def programVersion : String := "0.1.0"

structure Version where
  version : String
  target : String
  profile : String
  deriving DecidableEq, Repr

namespace Version

/-- The oldest compiler release that builds the program. -/
def compiler : String := "1.85"

def current : Version where
  version := programVersion
  target := "unknown"
  profile := "release"

def text (v : Version) : String :=
  programName ++ " " ++ v.version ++ " (" ++ v.target ++ ", " ++ v.profile ++ ")"

end Version

end Runbooks
