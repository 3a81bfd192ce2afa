import DeclSplit.Path
import DeclSplit.Settings.Variables

/-!
Where a user keeps settings.
-/
namespace DeclSplit.Variables

/-- The value of a variable that is not empty. -/
def filled? (vars : Variables) (name : String) : Option String :=
  (vars name).filter (· != "")

/-- The home directory of the user. -/
def home? (vars : Variables) : Option String :=
  vars.filled? "HOME"

/-- The directory for settings below the home directory. -/
def homeSettings? (vars : Variables) : Option String :=
  vars.home?.map (Path.join · ".config")

/-- The file of the user's settings. A directory for settings that is named by a path has to be
absolute to count. -/
def settingsFile? (vars : Variables) : Option String :=
  let directory := (vars.filled? "XDG_CONFIG_HOME").filter Path.isAbsolute <|> vars.homeSettings?
  directory.map (Path.join · "codechunk/config.toml")

end DeclSplit.Variables
