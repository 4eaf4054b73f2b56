import TokenLint.Text.Letter

/-!
# Token kinds

The kinds of tokens a PHP tokenizer reports, and their names. Tokens that consist of one
punctuation character carry no name in a dump; their kind follows from the character.

Main definitions: `Kind.name`, `Kind.ofName?`, `Kind.ofCharacter?` and the sets of kinds
the rules ask for.
-/

namespace TokenLint

/-- The kind of a token. -/
inductive Kind where
  | invalid
  | other
  | openTag
  | openTagWithEcho
  | closeTag
  | inlineHtml
  | whitespace
  | comment
  | docComment
  | identifier
  | variable
  | stringLiteral
  | doubleQuotedString
  | encapsedAndWhitespace
  | integerNumber
  | floatNumber
  | nameQualified
  | nameFullyQualified
  | namespaceSeparator
  | functionKeyword
  | arrowFunction
  | constKeyword
  | useKeyword
  | newKeyword
  | classKeyword
  | interfaceKeyword
  | traitKeyword
  | namespaceKeyword
  | returnKeyword
  | echoKeyword
  | publicKeyword
  | protectedKeyword
  | privateKeyword
  | extendsKeyword
  | implementsKeyword
  | arrayKeyword
  | eval
  | exit
  | include
  | includeOnce
  | require
  | requireOnce
  | isset
  | unset
  | empty
  | selfKeyword
  | staticKeyword
  | parentKeyword
  | objectOperator
  | nullsafeObjectOperator
  | doubleColon
  | doubleArrow
  | bitwiseAnd
  | equal
  | openParenthesis
  | closeParenthesis
  | openCurlyBracket
  | closeCurlyBracket
  | openSquareBracket
  | closeSquareBracket
  | semicolon
  | comma
  | concatenation
  | doubleQuote
  deriving DecidableEq, Inhabited

namespace Kind

/-- The tokenizer's name of a kind. -/
def name : Kind → Text
  | .invalid => "T_INVALID"
  | .other => "T_OTHER"
  | .openTag => "T_OPEN_TAG"
  | .openTagWithEcho => "T_OPEN_TAG_WITH_ECHO"
  | .closeTag => "T_CLOSE_TAG"
  | .inlineHtml => "T_INLINE_HTML"
  | .whitespace => "T_WHITESPACE"
  | .comment => "T_COMMENT"
  | .docComment => "T_DOC_COMMENT"
  | .identifier => "T_STRING"
  | .variable => "T_VARIABLE"
  | .stringLiteral => "T_CONSTANT_ENCAPSED_STRING"
  | .doubleQuotedString => "T_DOUBLE_QUOTED_STRING"
  | .encapsedAndWhitespace => "T_ENCAPSED_AND_WHITESPACE"
  | .integerNumber => "T_LNUMBER"
  | .floatNumber => "T_DNUMBER"
  | .nameQualified => "T_NAME_QUALIFIED"
  | .nameFullyQualified => "T_NAME_FULLY_QUALIFIED"
  | .namespaceSeparator => "T_NS_SEPARATOR"
  | .functionKeyword => "T_FUNCTION"
  | .arrowFunction => "T_FN"
  | .constKeyword => "T_CONST"
  | .useKeyword => "T_USE"
  | .newKeyword => "T_NEW"
  | .classKeyword => "T_CLASS"
  | .interfaceKeyword => "T_INTERFACE"
  | .traitKeyword => "T_TRAIT"
  | .namespaceKeyword => "T_NAMESPACE"
  | .returnKeyword => "T_RETURN"
  | .echoKeyword => "T_ECHO"
  | .publicKeyword => "T_PUBLIC"
  | .protectedKeyword => "T_PROTECTED"
  | .privateKeyword => "T_PRIVATE"
  | .extendsKeyword => "T_EXTENDS"
  | .implementsKeyword => "T_IMPLEMENTS"
  | .arrayKeyword => "T_ARRAY"
  | .eval => "T_EVAL"
  | .exit => "T_EXIT"
  | .include => "T_INCLUDE"
  | .includeOnce => "T_INCLUDE_ONCE"
  | .require => "T_REQUIRE"
  | .requireOnce => "T_REQUIRE_ONCE"
  | .isset => "T_ISSET"
  | .unset => "T_UNSET"
  | .empty => "T_EMPTY"
  | .selfKeyword => "T_SELF"
  | .staticKeyword => "T_STATIC"
  | .parentKeyword => "T_PARENT"
  | .objectOperator => "T_OBJECT_OPERATOR"
  | .nullsafeObjectOperator => "T_NULLSAFE_OBJECT_OPERATOR"
  | .doubleColon => "T_DOUBLE_COLON"
  | .doubleArrow => "T_DOUBLE_ARROW"
  | .bitwiseAnd => "T_BITWISE_AND"
  | .equal => "T_EQUAL"
  | .openParenthesis => "T_OPEN_PARENTHESIS"
  | .closeParenthesis => "T_CLOSE_PARENTHESIS"
  | .openCurlyBracket => "T_OPEN_CURLY_BRACKET"
  | .closeCurlyBracket => "T_CLOSE_CURLY_BRACKET"
  | .openSquareBracket => "T_OPEN_SQUARE_BRACKET"
  | .closeSquareBracket => "T_CLOSE_SQUARE_BRACKET"
  | .semicolon => "T_SEMICOLON"
  | .comma => "T_COMMA"
  | .concatenation => "T_STRING_CONCAT"
  | .doubleQuote => "T_DOUBLE_QUOTE"

/-- All kinds; the position of a kind in this list is its number. -/
def all : List Kind :=
  [.invalid, .other, .openTag, .openTagWithEcho, .closeTag, .inlineHtml, .whitespace,
   .comment, .docComment, .identifier, .variable, .stringLiteral, .doubleQuotedString,
   .encapsedAndWhitespace, .integerNumber, .floatNumber, .nameQualified,
   .nameFullyQualified, .namespaceSeparator, .functionKeyword, .arrowFunction,
   .constKeyword, .useKeyword, .newKeyword, .classKeyword, .interfaceKeyword, .traitKeyword,
   .namespaceKeyword, .returnKeyword, .echoKeyword, .publicKeyword, .protectedKeyword,
   .privateKeyword, .extendsKeyword, .implementsKeyword, .arrayKeyword, .eval, .exit,
   .include, .includeOnce, .require, .requireOnce, .isset, .unset, .empty, .selfKeyword,
   .staticKeyword, .parentKeyword, .objectOperator, .nullsafeObjectOperator, .doubleColon,
   .doubleArrow, .bitwiseAnd, .equal, .openParenthesis, .closeParenthesis,
   .openCurlyBracket, .closeCurlyBracket, .openSquareBracket, .closeSquareBracket,
   .semicolon, .comma, .concatenation, .doubleQuote]

/-- The name of the kind with a given number; numbers beyond the last kind are invalid. -/
def nameOfNumber (n : Nat) : Text := (all[n]?.getD .invalid).name

/-- The kind with exactly this name. -/
def ofExactName? (t : Text) : Option Kind := all.find? fun k => k.name = t

/-- The kind a dump means by a name, whatever its case and the blanks around it. The two
kinds that stand for the absence of a name have none. -/
def ofName? (t : Text) : Option Kind :=
  match ofExactName? (Text.trimBlank t).upper with
  | some .invalid | some .other | none => none
  | some k => some k

/-- The punctuation characters that are tokens of their own. -/
def punctuation : List (Text × Kind) :=
  [("(", .openParenthesis), (")", .closeParenthesis), ("\x7b", .openCurlyBracket),
   ("\x7d", .closeCurlyBracket), ("[", .openSquareBracket), ("]", .closeSquareBracket),
   (";", .semicolon), (",", .comma), (".", .concatenation), ("=", .equal),
   ("&", .bitwiseAnd), ("\"", .doubleQuote)]

/-- The kind of a token that is one punctuation character. -/
def ofCharacter? (t : Text) : Option Kind := punctuation.lookup t

/-- The kinds a function name can have. -/
def functionNames : List Kind :=
  [.identifier, .eval, .exit, .include, .includeOnce, .require, .requireOnce, .isset, .unset,
   .empty, .selfKeyword, .staticKeyword, .parentKeyword]

/-- White space and comments. -/
def trivia : List Kind := [.whitespace, .comment, .docComment]

/-- The keywords after which a name is declared or imported instead of called. -/
def declarations : List Kind :=
  [.functionKeyword, .arrowFunction, .constKeyword, .useKeyword, .newKeyword, .classKeyword,
   .interfaceKeyword, .traitKeyword]

/-- A set with further kinds at its end, each only once. -/
def extend (set extra : List Kind) : List Kind :=
  extra.foldl (fun out k => if k ∈ out then out else out ++ [k]) set

end Kind

end TokenLint
