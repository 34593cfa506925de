import TinyScript.Ast
import TinyScript.Ast.Parser
import TinyScript.Ast.Tree
import TinyScript.CommandLine
import TinyScript.CommandLine.Arguments
import TinyScript.Compile
import TinyScript.Core
import TinyScript.Core.Check
import TinyScript.Core.Lower
import TinyScript.Execution
import TinyScript.Ir
import TinyScript.Ir.Assembler
import TinyScript.Ir.Link
import TinyScript.Ir.Naming
import TinyScript.Ir.Printer
import TinyScript.Library.Arithmetic
import TinyScript.Library.Arrays
import TinyScript.Library.Call
import TinyScript.Library.Files
import TinyScript.Library.Random
import TinyScript.Library.Signature
import TinyScript.Library.Strings
import TinyScript.Library.Value
import TinyScript.Machine
import TinyScript.Main
import TinyScript.Number.Decimal
import TinyScript.Number.Double
import TinyScript.Number.Hypot
import TinyScript.Number.Power
import TinyScript.Number.Radix
import TinyScript.Text.Case
import TinyScript.Text.CaseTable
import TinyScript.Text.Cased
import TinyScript.Text.CodePoint
import TinyScript.Text.Escaped
import TinyScript.Text.Quoted
import TinyScript.Text.Span
import TinyScript.Text.Utf8
import TinyScript.Token
import TinyScript.Token.Lexer
import TinyScript.Token.Value
import TinyScript.Ty
import TinyScript.Proofs.Meaning
import TinyScript.Proofs.Meaning.Source
import TinyScript.Proofs.Meaning.Resolved
import TinyScript.Proofs.Compile
import TinyScript.Proofs.Token.Lexemes
import TinyScript.Proofs.Token.Numerals
import TinyScript.Proofs.Compile.Unchecked
import TinyScript.Proofs.Token.Tiling
import TinyScript.Proofs.Core.Judge.Warnings
import TinyScript.Proofs.Ast.Render.Statements
import TinyScript.Proofs.Token.Layout
import TinyScript.Proofs.Ast.Locality
import TinyScript.Proofs.Ast.Errors
import TinyScript.Proofs.Ast.Sourced
import TinyScript.Proofs.Core.Judge.Errors
import TinyScript.Proofs.Core.Flat
import TinyScript.Proofs.Compile.Errors
import TinyScript.Proofs.Ast.Endings
import TinyScript.Proofs.Compile.Linking
import TinyScript.Proofs.Compile.Slots
import TinyScript.Proofs.Compile.Strings
import TinyScript.Proofs.Ast.Literals
import TinyScript.Proofs.Token.Masking
import TinyScript.Proofs.Token.Nulls
import TinyScript.Proofs.Library.Random
import TinyScript.Proofs.Library.Search
import TinyScript.Proofs.Ast.Tree.Recovery
import TinyScript.Proofs.Ast.Outline
import TinyScript.Proofs.Ast.Brackets
import TinyScript.Proofs.Library.Primes
import TinyScript.Proofs.Ast.Termination
