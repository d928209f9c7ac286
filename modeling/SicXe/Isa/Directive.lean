import SicXe.Text.Basic

/-!
# Directives

Statements that are no instructions: they name and end the program, define data, reserve storage and
announce the base register.
-/

namespace SicXe

/-- A directive. -/
inductive Directive where
  | start
  | finish
  | byte
  | word
  | reserveBytes
  | reserveWords
  | base
  deriving DecidableEq, Repr

namespace Directive

/-- The mnemonic of a directive. -/
def keyword : Directive → Text
  | .start => "START"
  | .finish => "END"
  | .byte => "BYTE"
  | .word => "WORD"
  | .reserveBytes => "RESB"
  | .reserveWords => "RESW"
  | .base => "BASE"

/-- All directives. -/
def all : List Directive := [.start, .finish, .byte, .word, .reserveBytes, .reserveWords, .base]

/-- The directive with the given mnemonic. -/
def ofKeyword? (mnemonic : Text) : Option Directive := all.find? (·.keyword == mnemonic)

/-- What the directive is for. -/
def help : Directive → Text
  | .start => "Names the program and sets its hexadecimal starting address."
  | .finish => "Ends the program; the operand names the entry point."
  | .byte => "Character (C'..'), hex (X'..') or byte sized constant."
  | .word => "One 24-bit word constant."
  | .reserveBytes => "Reserves the given number of bytes."
  | .reserveWords => "Reserves the given number of 24-bit words."
  | .base => "Sets the base register value used for base relative addressing."

end Directive

end SicXe
