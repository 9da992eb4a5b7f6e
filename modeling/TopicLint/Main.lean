import TopicLint.Command.Run

/-! The program. What a run needs of the file system is read first; all else is done by
`Command.run`. -/

namespace TopicLint.Main

open Command (Surroundings Options)

def pathOf (location : List String) : String := "/" ++ "/".intercalate location

/-- The names in a directory, or `none` if there is no directory. -/
def namesIn (location : List String) : IO (Option (List String)) := do
  try
    let entries ← ((← IO.currentDir) / pathOf location).readDir
    return some (entries.toList.map (·.fileName))
  catch _ => return none

/-- Puts what is at a location on the disk: an empty directory, or a file with its text. -/
def note (disk : Disk) (location : List String) : IO Disk := do
  match ← namesIn location with
  | some _ => return { disk with root := disk.root.put (.directory .nil) location }
  | none =>
      try
        let bytes ← IO.FS.readBinFile (pathOf location)
        return { disk with root := disk.root.put (.file (String.fromUTF8? bytes)) location }
      catch _ => return disk

/-- Puts a location and everything in it on the disk, down to a depth. -/
def noteAll (disk : Disk) (location : List String) : Nat → IO Disk
  | 0 => note disk location
  | depth + 1 => do
      let disk ← note disk location
      match ← namesIn location with
      | none => return disk
      | some names =>
          names.foldlM (fun disk name => noteAll disk (location ++ [name]) depth) disk

/-- Puts what a path leads to on the disk, with everything in it down to a depth. -/
def load (depth : Nat) (disk : Disk) (path : String) : IO Disk := do
  let trail := disk.trail path
  let disk ← trail.foldlM note disk
  match trail.getLast? with
  | some location => noteAll disk location depth
  | none => return disk

/-- The directories of a project are at most so deep. -/
def projectDepth : Nat := 256

/-- Reads what a run with options needs: the project, the configuration files, and then the
directories that the configuration names. -/
def gather (around : Surroundings) (options : Options) : IO Surroundings := do
  let disk ← load 1 around.disk (Command.projectPath around options)
  let start := Command.startDirectory { around with disk } options
  let candidates := (Config.directoriesAbove start).flatMap fun directory =>
    Config.fileNames.map (Path.join directory)
  let disk ← (start :: options.config.toList ++ candidates).foldlM (load 0) disk
  let disk ← load 1 disk start
  let around := { around with disk }
  match Command.configOf around options with
  | .error _ => return around
  | .ok config =>
      let disk ← match Command.rulesDirectory around config with
        | .ok directory => load 2 disk directory
        | .error _ => pure disk
      let disk ← (config.scanDirs.map (Path.join start)).foldlM (load projectDepth) disk
      return { around with disk }

def variableNames : List String :=
  [Command.rulesVariable, "HOME", "XDG_CONFIG_HOME", "CLICOLOR", "CLICOLOR_FORCE", "NO_COLOR"]

/-- A run of the program in the process it is started in. -/
def start (arguments : List String) : IO UInt32 := do
  let values ← variableNames.mapM fun name => do return (name, ← IO.getEnv name)
  let output ← IO.getStdout
  let here := Path.steps ((← IO.currentDir).toString)
  let names := here.filterMap fun
    | .named name => some (String.ofList name)
    | _ => none
  let env := fun name => (values.lookup name).join
  let around : Surroundings := ⟨⟨.nil, names⟩, env, ← output.isTty⟩
  let around ← match Command.readOptions env arguments with
    | .ok options => gather around options
    | .error _ => pure around
  let outcome := Command.run around arguments
  output.putStr outcome.output
  output.flush
  (← IO.getStderr).putStr outcome.complaint
  return outcome.code.toUInt32

end TopicLint.Main

def main (arguments : List String) : IO UInt32 := TopicLint.Main.start arguments
