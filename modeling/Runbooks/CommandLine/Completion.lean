import Runbooks.CommandLine.Completion.Fish
import Runbooks.CommandLine.Completion.Zsh
import Runbooks.CommandLine.Invocation

namespace Runbooks.CommandLine.Shell

def commandNames : List String :=
  Spec.commands.map Spec.name

/-- A script that offers the names of the commands. -/
def bashScript : String :=
  "complete -o default -W \"" ++ " ".intercalate commandNames ++ "\" " ++ programName ++ "\n"

def elvishScript : String :=
  "set edit:completion:arg-completer[" ++ programName ++ "] = \x7b|@words| put " ++
    " ".intercalate commandNames ++ " \x7d\n"

def powershellScript : String :=
  "Register-ArgumentCompleter -Native -CommandName '" ++ programName ++
    "' -ScriptBlock \x7b " ++ ", ".intercalate (commandNames.map fun n => "'" ++ n ++ "'") ++
    " \x7d\n"

def script : Shell → String
  | bash => bashScript
  | elvish => elvishScript
  | fish => Completion.Fish.script
  | powershell => powershellScript
  | zsh => Completion.Zsh.script

def instructionLines : Shell → List String
  | bash =>
    ["# Bash completion installation:",
      "# Add the following to your ~/.bashrc:",
      "",
      "eval \"$(runbook completions bash)\"",
      "",
      "# Or save to file:",
      "runbook completions bash > ~/.local/share/bash-completion/completions/runbook"]
  | zsh =>
    ["# Zsh completion installation:",
      "mkdir -p ~/.zsh/completions",
      "echo 'fpath=(~/.zsh/completions $fpath)' >> ~/.zshrc",
      "echo 'autoload -Uz compinit && compinit' >> ~/.zshrc",
      "runbook completions zsh > ~/.zsh/completions/_runbook"]
  | fish =>
    ["# Fish completion installation:",
      "runbook completions fish > ~/.config/fish/completions/runbook.fish"]
  | powershell =>
    ["# PowerShell completion installation:",
      "# Add the following to your PowerShell profile ($PROFILE):",
      "",
      "Invoke-Expression (& runbook completions powershell | Out-String)"]
  | elvish =>
    ["# Elvish completion installation:",
      "# Add the following to ~/.elvish/rc.elv:",
      "",
      "eval (runbook completions elvish | slurp)"]

def instructions (s : Shell) : String :=
  String.join (s.instructionLines.map (· ++ "\n"))

end Runbooks.CommandLine.Shell
