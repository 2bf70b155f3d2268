import SqlLayout.Cursor.Rule
import SqlLayout.Keyword

/-!
# Names and Constants
-/

namespace SqlLayout.Grammar

open Rule

/-- A backquoted name, or a word that is not reserved. -/
def identifier? : Rule (Option Identifier) := fun cursor =>
  match cursor.token? 0 with
  | some token =>
    if token.kind = .quotedIdent || (token.kind = .word && !Keyword.isReserved token.text) then
      .ok (some { raw := token.text }) (cursor.advance 1)
    else .ok none cursor
  | none => .ok none cursor

def identifier : Rule Identifier :=
  require "an identifier" identifier?

/-- Any word, reserved or not, or a backquoted name: what may stand after a dot. -/
def segment? : Rule (Option Identifier) := fun cursor =>
  match cursor.token? 0 with
  | some token =>
    if token.kind = .quotedIdent || token.kind = .word then
      .ok (some { raw := token.text }) (cursor.advance 1)
    else .ok none cursor
  | none => .ok none cursor

/-- A dot and the segment after it. -/
def dotSegment? : Rule (Option Identifier) :=
  attempt do
    if ← skip "." then segment? else return none

def qualifiedName? : Rule (Option QualifiedName) := do
  match ← identifier? with
  | some first => return some { first, rest := ← many dotSegment? }
  | none => return none

def qualifiedName : Rule QualifiedName :=
  require "a name" qualifiedName?

/-- `[AS] alias`; without `AS` only a word that is not reserved is one. -/
def aliasName? : Rule (Option Identifier) := do
  if ← skip "AS" then return some (← identifier) else identifier?

def constant? : Rule (Option Constant) := do
  match ← kind? with
  | some .string => return (← bump).map Constant.ofLiteral
  | some .number => return (← bump).map fun text => { kind := .number, text }
  | some .word =>
    match ← takeAny? ["TRUE", "FALSE"] with
    | some text => return some { kind := .boolean, text := Text.upper text }
    | none =>
      if ← skip "NULL" then return some { kind := .null, text := "NULL" } else return none
  | _ => return none

def constant : Rule Constant :=
  require "a literal" constant?

end SqlLayout.Grammar
