import TinyScript.Text.Quoted
import TinyScript.Text.Span

/-! Tokens. A string literal's text is its contents with the escapes undone, an
invalid token's is what is wrong with it, and every other token's is its
lexeme. -/

namespace TinyScript

open Text (Span)

namespace Token

inductive Kind where
  | kwLet | kwConst | kwVar | kwFunction | kwIf | kwElse | kwWhile | kwFor | kwDo | kwReturn
  | kwTrue | kwFalse | kwNull | kwUndefined
  | tyNumber | tyString | tyBoolean | tyI32 | tyF64
  | lparen | rparen | lbrace | rbrace | lbracket | rbracket
  | semicolon | colon | comma | dot
  | plus | minus | star | slash | percent
  | assign | less | greater | bang
  | eqEq | notEq | lessEq | greaterEq | andAnd | orOr | plusPlus | minusMinus | fatArrow
  | identifier | stringLiteral | integerLiteral | floatLiteral
  | endOfInput | invalid
  deriving DecidableEq, Repr

namespace Kind

/-- Kinds as messages name them. -/
def name : Kind → String
  | kwLet => "Let" | kwConst => "Const" | kwVar => "Var" | kwFunction => "Function"
  | kwIf => "If" | kwElse => "Else" | kwWhile => "While" | kwFor => "For" | kwDo => "Do"
  | kwReturn => "Return" | kwTrue => "True" | kwFalse => "False" | kwNull => "Null"
  | kwUndefined => "Undefined"
  | tyNumber => "TyNumber" | tyString => "TyString" | tyBoolean => "TyBoolean"
  | tyI32 => "TyI32" | tyF64 => "TyF64"
  | lparen => "LParen" | rparen => "RParen" | lbrace => "LBrace" | rbrace => "RBrace"
  | lbracket => "LBracket" | rbracket => "RBracket"
  | semicolon => "Semicolon" | colon => "Colon" | comma => "Comma" | dot => "Dot"
  | plus => "Plus" | minus => "Minus" | star => "Star" | slash => "Slash" | percent => "Percent"
  | assign => "Assign" | less => "Less" | greater => "Greater" | bang => "Bang"
  | eqEq => "EqEq" | notEq => "NotEq" | lessEq => "LessEq" | greaterEq => "GreaterEq"
  | andAnd => "AndAnd" | orOr => "OrOr" | plusPlus => "PlusPlus" | minusMinus => "MinusMinus"
  | fatArrow => "FatArrow"
  | identifier => "Identifier" | stringLiteral => "StringLiteral"
  | integerLiteral => "IntegerLiteral" | floatLiteral => "FloatLiteral"
  | endOfInput => "EndOfInput" | invalid => "Invalid"

def all : List Kind :=
  [kwLet, kwConst, kwVar, kwFunction, kwIf, kwElse, kwWhile, kwFor, kwDo, kwReturn,
    kwTrue, kwFalse, kwNull, kwUndefined, tyNumber, tyString, tyBoolean, tyI32, tyF64,
    lparen, rparen, lbrace, rbrace, lbracket, rbracket, semicolon, colon, comma, dot,
    plus, minus, star, slash, percent, assign, less, greater, bang, eqEq, notEq, lessEq,
    greaterEq, andAnd, orOr, plusPlus, minusMinus, fatArrow, identifier, stringLiteral,
    integerLiteral, floatLiteral, endOfInput, invalid]

def ofName? (name : String) : Option Kind :=
  all.find? (·.name == name)

/-- Whether a kind names a built-in type. -/
def isTypeName : Kind → Bool
  | tyNumber | tyString | tyBoolean | tyI32 | tyF64 => true
  | _ => false

end Kind

/-- Words that are no identifiers. -/
def keywords : List (String × Kind) :=
  [("let", .kwLet), ("const", .kwConst), ("var", .kwVar), ("function", .kwFunction),
    ("if", .kwIf), ("else", .kwElse), ("while", .kwWhile), ("for", .kwFor), ("do", .kwDo),
    ("return", .kwReturn), ("true", .kwTrue), ("false", .kwFalse), ("null", .kwNull),
    ("undefined", .kwUndefined), ("number", .tyNumber), ("string", .tyString),
    ("boolean", .tyBoolean), ("i32", .tyI32), ("f64", .tyF64)]

/-- The kind of a word: a keyword's own, or identifier. -/
def wordKind (word : String) : Kind :=
  (keywords.lookup word).getD .identifier

end Token

structure Token where
  kind : Token.Kind
  text : String
  span : Span
  deriving DecidableEq, Repr

/-- A token on one line: kind, quoted text and span. -/
def Token.render (t : Token) : String :=
  "Token(" ++ t.kind.name ++ ", " ++ Text.Quoted.render t.text ++ ", " ++ t.span.render ++ ")"

end TinyScript
