import WrapperGen.Config.Locate
import WrapperGen.Failure
/-!
# Outcomes of commands

A command works on files, prints lines and gives an answer or says why it stopped.
-/

namespace WrapperGen.Command

open Files

inductive Halt
  | failed (message : String) (cause : Option String)
  | panicked (text : String)
deriving DecidableEq, Repr

namespace Halt

/-- The halt with a text and nothing behind it. -/
def plain (message : String) : Halt := .failed message none

/-- The texts of a halt, the outermost first. -/
def chain : Halt → List String
  | failed message cause => message :: cause.toList
  | panicked text => [text]

end Halt

structure Outcome (α : Type) where
  files : FileSystem
  /-- The lines that were printed. -/
  printed : List String
  answer : Except Halt α

namespace Outcome

def halted {α : Type} (files : FileSystem) (h : Halt) : Outcome α := ⟨files, [], .error h⟩

/-- The outcome when other lines were printed before. -/
def after {α : Type} (lines : List String) (o : Outcome α) : Outcome α :=
  { o with printed := lines ++ o.printed }

def stdout {α : Type} (o : Outcome α) : String := String.join (o.printed.map (· ++ "\n"))

end Outcome

def ofIo {α : Type} (r : Except IoError α) : Except Halt α := r.mapError fun e => .plain e.text

/-- The settings of a file that is named, or else those that hold for the sources. -/
def settings (files : FileSystem) (source : FilePath) : Option FilePath → Except Halt Config
  | some p => (Config.ofFile files p).mapError .plain
  | none => .ok (Config.locate files source).config

/-- Says what was going on when something failed. -/
def during {α : Type} (what : String) (r : Except Failure α) : Except Halt α :=
  r.mapError fun e => .failed what (some e.message)

end WrapperGen.Command
