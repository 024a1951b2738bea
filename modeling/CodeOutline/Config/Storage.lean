import CodeOutline.Config.Decode
import CodeOutline.Config.Render
import CodeOutline.Path

/-!
# Config.Storage — where settings are kept, and what becomes of reading and writing them there

The files are not touched here. What stands at each path is given as a function, and each operation says
what it would do: the text to be written or the settings found, or why it fails.
-/

namespace CodeOutline.Storage

/-- The variables of the environment that say where settings are kept. -/
structure Environment where
  /-- The directory for settings of all programs, if it is set; it may be empty. -/
  configHome : Option String
  /-- The user's own directory, if it is known; an empty one is as good as none. -/
  home : Option String

def appName : String := "outliner"

/-- The directory of this program's settings: in the one for all programs, or below the user's own. -/
def configDir? (env : Environment) : Option String :=
  let below := (env.home.filter fun h => !h.isEmpty).map fun h => Path.join h ".config"
  (env.configHome.or below).map fun d => Path.join d appName

def configFile? (env : Environment) : Option String :=
  (configDir? env).map fun d => Path.join d "config.yaml"

def logsDir? (env : Environment) : Option String :=
  (configDir? env).map fun d => Path.join d "logs"

/-- What stands at a path. -/
inductive Entry where
  | absent
  | directory
  | file (content : String)
  deriving DecidableEq

abbrev Disk := String → Entry

inductive Error where
  | noConfigDir
  | read (path : String)
  | parse (path : String)
  | createDir (path : String)
  | createConfigDir (path : String)
  | write (path : String)
  deriving DecidableEq, Repr

def Error.message : Error → String
  | .noConfigDir => "No config directory available"
  | .read path => "Failed to read config at " ++ path
  | .parse path => "Failed to parse config at " ++ path
  | .createDir path => "Failed to create directory " ++ path
  | .createConfigDir path => "Failed to create config directory " ++ path
  | .write path => "Failed to write config to " ++ path

def loadFrom (disk : Disk) (path : String) : Except Error Config :=
  match disk path with
  | .file content =>
      match Config.ofYaml content with
      | .ok c => .ok c
      | .error _ => .error (.parse path)
  | _ => .error (.read path)

/-- The settings in their usual place; the defaults if there are none or they cannot be read. -/
def load (disk : Disk) (env : Environment) : Config :=
  match (configFile? env).map (loadFrom disk) with
  | some (.ok c) => c
  | _ => {}

/-- A directory can be made at a path unless a file stands there or on the way. -/
def canMakeDir (disk : Disk) (path : String) : Bool :=
  (Path.ancestors path).all fun p =>
    match disk p with
    | .file _ => false
    | _ => true

/-- The text that saving settings at a path writes there. -/
def saveTo (disk : Disk) (path : String) (c : Config) : Except Error String :=
  let parent := Path.parent path
  if !canMakeDir disk parent then .error (.createConfigDir parent)
  else if disk path = .directory then .error (.write path)
  else .ok c.render

def save (disk : Disk) (env : Environment) (c : Config) : Except Error (String × String) :=
  match configFile? env with
  | none => .error .noConfigDir
  | some path => (saveTo disk path c).map (path, ·)

def ensureLogsDir (disk : Disk) (env : Environment) : Except Error String :=
  match logsDir? env with
  | none => .error .noConfigDir
  | some path => if canMakeDir disk path then .ok path else .error (.createDir path)

end CodeOutline.Storage
