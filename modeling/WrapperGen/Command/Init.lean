import WrapperGen.Command.Outcome
/-!
# Creating a settings file
-/

namespace WrapperGen.Command

open Files

structure InitOptions where
  dir : FilePath
  force : Bool
deriving DecidableEq, Repr

/-- Writes the default settings into a directory. An existing file is kept unless forced. -/
def initConfig (files : FileSystem) (options : InitOptions) : Outcome FilePath :=
  let path := options.dir.join ⟨Config.fileName⟩
  if files.exists? path && !options.force then
    .halted files (.plain "Configuration file already exists. Use --force to overwrite.")
  else
    match files.ensureDirectory options.dir with
    | .error e => .halted (files.makeDirectories options.dir).1 (.plain e.text)
    | .ok files =>
      match files.writeText path Config.defaultText with
      | .error e => .halted files (.plain e.text)
      | .ok files => ⟨files, ["Created " ++ path.text ++ " configuration file"], .ok path⟩

end WrapperGen.Command
