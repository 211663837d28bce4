import WrapperGen.Files.SourceTree
import WrapperGen.Service.Universe
/-!
# Loading sources

The universe of the sources in a directory. A file that does not parse is put aside; a file that
cannot be read as text ends the loading.
-/

namespace WrapperGen.Universe

open Files

def load (fs : FileSystem) (root : FilePath) (exclude : List String) : Except Failure Universe := do
  let paths ← fs.findSources root exclude
  paths.foldlM (fun u p => do
    let text ← (fs.readText p).mapError .io
    return u.addLoaded root p text) empty

end WrapperGen.Universe
