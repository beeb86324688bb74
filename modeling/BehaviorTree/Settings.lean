import BehaviorTree.Config
import BehaviorTree.File

/-! # Settings from files

Settings are read from a file and refused when they are unusable. Without a file the defaults hold.
The format of the file is not fixed here. -/

namespace BehaviorTree

/-- Why settings are not loaded from the file at `path`. -/
inductive ConfigError where
  | unreadable (path : String) (fault : FileFault)
  | malformed (path reason : String)
  | unusable (path : String) (fault : Config.Fault)
  deriving DecidableEq

namespace ConfigError

def message : ConfigError → String
  | .unreadable path _ => "Failed to read config from " ++ path
  | .malformed path _ => "Failed to parse config from " ++ path
  | .unusable path _ => "Invalid config in " ++ path

def cause : ConfigError → String
  | .unreadable _ fault => fault.message
  | .malformed _ reason => reason
  | .unusable _ fault => fault.message

end ConfigError

namespace Config

/-- Loads the settings in a file, whose text is read by `parse`. -/
def load (parse : String → Except String Config) (path : String) (file : File) :
    Except ConfigError Config :=
  match file.text with
  | .error fault => .error (.unreadable path fault)
  | .ok text => match parse text with
    | .error reason => .error (.malformed path reason)
    | .ok config => match config.fault? with
      | some fault => .error (.unusable path fault)
      | none => .ok config

/-- Loads the settings in a file if one is given, and takes the defaults otherwise. -/
def loadOrDefault (parse : String → Except String Config) :
    Option (String × File) → Except ConfigError Config
  | none => .ok default
  | some (path, file) => load parse path file

end Config

end BehaviorTree
