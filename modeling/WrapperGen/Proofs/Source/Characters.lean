import WrapperGen.Source.Parse
/-!
# Reading characters

A source text is read by its characters: `File.parse_eq`. This is the form in which what is read of a
literal can be evaluated, with the characters that `toList_of_ofList` gives for it.
-/

namespace WrapperGen.Source

/-- The characters of a literal. -/
theorem toList_of_ofList {text : String} {cs : List Char} (h : String.ofList cs = text) :
    text.toList = cs := by
  rw [← h, String.toList_ofList]

namespace Lexer

/-- The token trees of these characters. -/
def lexChars (cs : List Char) : Except Pos (List Tree) :=
  lexFrom ((dropMark cs).length + 1) [] [] .start (dropMark cs)

theorem lex_ofList (cs : List Char) : lex (String.ofList cs) = lexChars cs := by
  unfold lex
  rw [String.toList_ofList]
  rfl

end Lexer

namespace File

/-- The items of a source text with these characters. -/
def parseChars (cs : List Char) : Except SyntaxError File :=
  match Lexer.lexChars (dropShebang (Lexer.dropMark cs)) with
  | .error pos => .error ⟨pos, .noTokens⟩
  | .ok trees => readTrees reader trees

theorem parse_eq (text : String) : parse text = parseChars text.toList := by
  unfold parse readText
  rw [Lexer.lex_ofList]
  rfl

end File

end WrapperGen.Source
