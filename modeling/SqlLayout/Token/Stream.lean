import SqlLayout.Failure
import SqlLayout.Text.Blank
import SqlLayout.Token.Lexer

/-!
# Token Streams

A grammar reads only the tokens that carry meaning. Comments are set aside, each with the place in the
stream where it stood, and blanks are dropped; garbage refuses the whole source.
-/

namespace SqlLayout

/-- A comment set aside from the stream. -/
structure Comment where
  /-- How many significant tokens stand before the comment. -/
  before : Nat
  token : Token
deriving DecidableEq, Inhabited

/-- What is shown of a comment: its text without the blanks at the end. -/
def Comment.text (comment : Comment) : String :=
  Text.trimEnd comment.token.text

/-- The significant tokens of a source, and the comments between them. -/
structure TokenStream where
  tokens : List Token := []
  comments : List Comment := []
deriving DecidableEq, Inhabited

namespace TokenStream

/-- Sorts tokens into a stream, after `count` significant ones. -/
def sort (count : Nat) : List Token → TokenStream
  | [] => {}
  | token :: rest =>
    if token.kind.isComment then
      let stream := sort count rest
      { stream with comments := { before := count, token } :: stream.comments }
    else if token.kind.isTrivia then sort count rest
    else
      let stream := sort (count + 1) rest
      { stream with tokens := token :: stream.tokens }

/-- The stream of a source, unless it holds garbage. -/
def ofSource (source : String) : Except Failure TokenStream :=
  let tokens := Token.lex source
  match tokens.find? fun token => token.kind = .garbage with
  | some token => .error { span := token.span, cause := .unrecognized token.text }
  | none => .ok (sort 0 tokens)

end TokenStream

end SqlLayout
