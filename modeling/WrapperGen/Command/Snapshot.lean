import WrapperGen.Command.Invocation
/-!
# What a command reads and writes

Which directories and files a task depends on, and how the files differ after it.
-/

namespace WrapperGen.Command

open Files

/-- The files that matter in a directory above a tree that is read. -/
def markers : List (List String) :=
  [[".ignore"], [".gitignore"], [".git"], [".git", "info", "exclude"], [Config.fileName]]

namespace Task

/-- The trees that are read. -/
def trees : Task → List FilePath
  | generate o => [o.source, o.out]
  | scan o => [o.source]
  | init _ => []

/-- Other paths that are looked at. -/
def paths : Task → List FilePath
  | generate o => o.config.toList
  | scan o => o.config.toList
  | init o => [o.dir, o.dir.join ⟨Config.fileName⟩]

end Task

/-- What is new or different in `after`. -/
def changes (before after : FileSystem) : List (Place × Node) :=
  after.entries.filter fun (p, n) => before.node? p != some n

end WrapperGen.Command
