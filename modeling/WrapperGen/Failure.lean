import WrapperGen.Files.FilePath
import WrapperGen.Files.Glob
import WrapperGen.Files.IoError
import WrapperGen.Source.Fault
/-!
# Failures of the generator
-/

namespace WrapperGen

open Files Source

/-- Why something could not be generated. The first two concern one interface; the others a whole
run. -/
inductive Failure
  | aborted (interface reason : String)
  | writeFailed (unit : String) (cause : IoError)
  | parse (path : FilePath) (line column : Nat) (message : String)
  | config (message : String)
  | walk (message : String)
  | pattern (error : GlobError)
  | io (error : IoError)
deriving DecidableEq, Repr

namespace Failure

/-- The failure to read a source file; columns are counted from one here. -/
def ofSyntax (path : FilePath) (e : SyntaxError) : Failure :=
  .parse path e.pos.line (e.pos.column + 1) e.fault.message

def message : Failure → String
  | aborted interface reason => "generation aborted for " ++ interface ++ ": " ++ reason
  | writeFailed unit cause => "failed to write " ++ unit ++ ": " ++ cause.text
  | parse path line column message =>
    "parse error in " ++ path.text ++ ":" ++ toString line ++ ":" ++ toString column ++ ": " ++
      message
  | config message => "configuration error: " ++ message
  | walk message => message
  | pattern error => error.text
  | io error => error.text

/-- Whether the failure leaves other interfaces alone. -/
def isInterfaceScoped : Failure → Bool
  | aborted .. | writeFailed .. => true
  | _ => false

end Failure

end WrapperGen
