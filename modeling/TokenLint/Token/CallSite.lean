import TokenLint.Token.Stream

/-!
# Call sites

When is a name in a token stream the name of a function being called?
-/

namespace TokenLint.Stream

/-- A name is called if an opening parenthesis follows it and no declaring keyword stands
before it. White space and comments do not count, nor, before the name, the mark of a
function that returns a reference. -/
def isFunctionCall (s : Stream) (pos : Int) : Bool :=
  if !s.valid pos || (s.tokenAt pos).kind ≠ .identifier then false
  else match s.findNextExcluding Kind.trivia (pos + 1) with
    | none => false
    | some next =>
      if (s.tokenAt next).kind ≠ .openParenthesis then false
      else match s.findPrevExcluding (Kind.extend Kind.trivia [.bitwiseAnd]) (pos - 1) with
        | none => true
        | some prev => (s.tokenAt prev).kind ∉ Kind.declarations

end TokenLint.Stream
