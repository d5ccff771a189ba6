import Runbooks.Config.Loading

namespace Runbooks.Config

def below (dir name : String) : String :=
  if dir.toList.getLast? = some '/' then dir ++ name else dir ++ "/" ++ name

/-- The home directory that a variable names, or else the system. -/
inductive HomeDir (vars : Variables) (home : Option String) : String → Prop
  | named {dir : String} (hvar : vars "HOME" = some dir) (hdir : dir ≠ "") : HomeDir vars home dir
  | known {dir : String} (hvar : ∀ other, vars "HOME" = some other → other = "")
      (hhome : home = some dir) (hdir : dir ≠ "") : HomeDir vars home dir

/-- Where a user's own file is looked for: in the directory that is named for such files, if it is
named by an absolute path, else below the home directory, if there is one. -/
inductive UserFile (vars : Variables) (home : Option String) : Option String → Prop
  | named {dir : String} (hvar : vars "XDG_CONFIG_HOME" = some dir)
      (hdir : dir.toList.head? = some '/') :
      UserFile vars home (some (below dir "runbook-cli/config.toml"))
  | atHome {dir : String}
      (hvar : ∀ other, vars "XDG_CONFIG_HOME" = some other → other.toList.head? ≠ some '/')
      (hdir : HomeDir vars home dir) :
      UserFile vars home (some (below dir ".config/runbook-cli/config.toml"))
  | nowhere
      (hvar : ∀ other, vars "XDG_CONFIG_HOME" = some other → other.toList.head? ≠ some '/')
      (hdir : ∀ dir, ¬HomeDir vars home dir) : UserFile vars home none

/-- The files that are looked for, the strongest last. -/
inductive Searched (vars : Variables) (home : Option String) : Option String → List String → Prop
  | explicit (path : String) : Searched vars home (some path) [path]
  | standing {user : Option String} (huser : UserFile vars home user) :
      Searched vars home none
        (["/etc/runbook-cli/config.toml"] ++ user.toList ++ [".runbook-cli.toml"])

section Joining

variable {dir name : String}

theorem join_eq_below (hdir : dir ≠ "") (hname : Path.isAbsolute name = false) :
    Path.join dir name = below dir name := by
  have hempty : dir.isEmpty = false := by simpa using hdir
  unfold Path.join below
  rw [hname, hempty]
  rfl

theorem below_ne_empty (dir : String) (hname : name ≠ "") : below dir name ≠ "" := by
  unfold below
  split <;> simp [hname]

theorem below_below_config (dir : String) : below (below dir ".config") "runbook-cli/config.toml" =
    below dir ".config/runbook-cli/config.toml" := by
  have hlast : (below dir ".config").toList.getLast? = some 'g' := by
    unfold below
    split <;> simp
  have hslash : ¬some 'g' = some '/' := by decide
  have hname : ".config/runbook-cli/config.toml" = ".config" ++ "/" ++ "runbook-cli/config.toml" := by
    decide
  rw [below, hlast, if_neg hslash, hname]
  unfold below
  split <;> simp only [String.append_assoc]

end Joining

section Directories

variable {vars : Variables} {home : Option String} {dir : String}

theorem HomeDir.ne_empty (h : HomeDir vars home dir) : dir ≠ "" := by
  cases h <;> assumption

theorem homeDir?_eq_some_iff : homeDir? vars home = some dir ↔ HomeDir vars home dir := by
  have hfilled : ∀ s : String, (!s.isEmpty) = true ↔ s ≠ "" := by simp
  unfold homeDir?
  simp only [Option.or_eq_some_iff, Option.filter_eq_some_iff, Option.filter_eq_none_iff, hfilled,
    ne_eq, Classical.not_not]
  constructor
  · rintro (⟨hvar, hdir⟩ | ⟨hvar, hhome, hdir⟩)
    · exact .named hvar hdir
    · exact .known hvar hhome hdir
  · intro h
    cases h with
    | named hvar hdir => exact .inl ⟨hvar, hdir⟩
    | known hvar hhome hdir => exact .inr ⟨hvar, hhome, hdir⟩

theorem userFile_userDir? (vars : Variables) (home : Option String) :
    UserFile vars home ((userDir? vars home).map (Path.join · "runbook-cli/config.toml")) := by
  have habsolute : ∀ s : String, Path.isAbsolute s = true ↔ s.toList.head? = some '/' :=
    fun s => decide_eq_true_iff
  unfold userDir?
  cases hnamed : (vars "XDG_CONFIG_HOME").filter Path.isAbsolute with
  | some dir =>
    rw [Option.filter_eq_some_iff, habsolute] at hnamed
    have hdir : dir ≠ "" := by
      rintro rfl
      cases hnamed.2
    rw [Option.some_or, Option.map_some, join_eq_below hdir (by decide)]
    exact .named hnamed.1 hnamed.2
  | none =>
    simp only [Option.filter_eq_none_iff, habsolute] at hnamed
    rw [Option.none_or]
    cases hhome : homeDir? vars home with
    | some dir =>
      have hdir : HomeDir vars home dir := homeDir?_eq_some_iff.mp hhome
      rw [Option.map_some, Option.map_some, join_eq_below hdir.ne_empty (by decide),
        join_eq_below (below_ne_empty dir (by decide)) (by decide), below_below_config]
      exact .atHome hnamed hdir
    | none =>
      refine .nowhere hnamed fun dir hdir => ?_
      rw [homeDir?_eq_some_iff.mpr hdir] at hhome
      cases hhome

theorem searched_paths (vars : Variables) (home explicit : Option String) :
    Searched vars home explicit (paths vars explicit home) := by
  cases explicit with
  | some path => exact .explicit path
  | none => exact .standing (userFile_userDir? vars home)

end Directories

end Runbooks.Config
