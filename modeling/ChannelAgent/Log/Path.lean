set_option autoImplicit false

namespace ChannelAgent.Log.Path

/-- The directory below which logs are kept on Windows: that of the variable, if it is set. -/
def windowsBase (programData : Option String) : String :=
  match programData with
  | some path => if path.isEmpty then "C:\\Program Files" else path
  | none => "C:\\Program Files"

def withSeparator (dir : String) (separator : Char) : String :=
  if dir.toList.getLast? = some separator then dir else dir.push separator

def logName (agent command : String) : String :=
  if command.isEmpty then agent else agent ++ "-" ++ command

/-- The log file of an agent for a command, or of its daemon when the command is empty. A directory
that is not empty takes the place of the usual one. -/
def ofCommand (agent command os dir : String) (programData : Option String) : String :=
  let name := logName agent command ++ ".log"
  if os = "windows" then
    if dir.isEmpty then
      windowsBase programData ++ "\\Google\\" ++ agent ++ "\\logs\\" ++ name
    else withSeparator dir '\\' ++ name
  else if dir.isEmpty then "/var/log/" ++ name
  else withSeparator dir '/' ++ name

/-- The log file with a mark where the name of the command goes. -/
def template (agent os dir : String) (programData : Option String) : String :=
  ofCommand agent "\x7bCOMMAND\x7d" os dir programData

end ChannelAgent.Log.Path
