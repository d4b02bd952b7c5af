import SwiftWorkspace.Text.Basic

/-!
# Code, string literals and comments

Every character of a Swift source is code, part of a string literal, or part
of a comment.  One pass from left to right decides this: the pass is in a mode,
and the next few characters decide their own kind and the mode that follows.

A single-line literal that is not closed ends before its line break.  A
multi-line literal or a block comment that is not closed runs to the end.
-/

namespace SwiftWorkspace

/-- What a character of a source belongs to. -/
inductive Kind where
  | code
  | string
  | comment
  deriving DecidableEq, Repr

namespace Kind

inductive Mode where
  /-- Outside of literals and comments. -/
  | code
  /-- Inside a literal that one quotation mark closes. -/
  | line
  /-- Inside a literal that three quotation marks close. -/
  | block
  /-- Inside a comment that the line break closes. -/
  | lineComment
  /-- Inside block comments nested to one more than this depth. -/
  | blockComment (depth : Nat)
  deriving DecidableEq, Repr

/-- The mode behind the closing marks of a block comment. -/
def outside : Nat → Mode
  | 0 => .code
  | depth + 1 => .blockComment depth

/-- What a pass over a text makes of its pieces, from the last one to the first. -/
structure Fold (α : Type) where
  /-- What is made of the end of the text, by the mode there. -/
  atEnd : Mode → α
  /--
  What is made of a token, by the mode in front of it, its kind and its length, and of the rest.
  -/
  token : Mode → Kind → Nat → α → α
  /-- What is made of a line feed that breaks a literal off, and of the rest. -/
  feed : α → α

def Fold.run {α : Type} (fold : Fold α) : Mode → Text → α
  | mode, [] => fold.atEnd mode
  | .code, '"' :: '"' :: '"' :: text => fold.token .code .string 3 (fold.run .block text)
  | .code, '"' :: text => fold.token .code .string 1 (fold.run .line text)
  | .code, '/' :: '/' :: text => fold.token .code .comment 2 (fold.run .lineComment text)
  | .code, '/' :: '*' :: text => fold.token .code .comment 2 (fold.run (.blockComment 0) text)
  | .code, _ :: text => fold.token .code .code 1 (fold.run .code text)
  | .line, '\\' :: _ :: text => fold.token .line .string 2 (fold.run .line text)
  | .line, '"' :: text => fold.token .line .string 1 (fold.run .code text)
  | .line, '\n' :: text => fold.feed (fold.run .code text)
  | .line, _ :: text => fold.token .line .string 1 (fold.run .line text)
  | .block, '\\' :: _ :: text => fold.token .block .string 2 (fold.run .block text)
  | .block, '"' :: '"' :: '"' :: text => fold.token .block .string 3 (fold.run .code text)
  | .block, _ :: text => fold.token .block .string 1 (fold.run .block text)
  | .lineComment, '\n' :: text => fold.token .lineComment .code 1 (fold.run .code text)
  | .lineComment, _ :: text => fold.token .lineComment .comment 1 (fold.run .lineComment text)
  | .blockComment depth, '/' :: '*' :: text =>
      fold.token (.blockComment depth) .comment 2 (fold.run (.blockComment (depth + 1)) text)
  | .blockComment depth, '*' :: '/' :: text =>
      fold.token (.blockComment depth) .comment 2 (fold.run (outside depth) text)
  | .blockComment depth, _ :: text =>
      fold.token (.blockComment depth) .comment 1 (fold.run (.blockComment depth) text)

/-- Every character of a token gets the kind of the token. -/
def Fold.kinds : Fold (List Kind) where
  atEnd _ := []
  token _ kind length rest := List.replicate length kind ++ rest
  feed rest := .code :: rest

def classifyFrom (mode : Mode) (text : Text) : List Kind := Fold.kinds.run mode text

/-- The kind of each character of a source. -/
def classify (text : Text) : List Kind := classifyFrom .code text

/-- Every character gets exactly one kind, in whatever mode the text is entered. -/
theorem length_classifyFrom (mode : Mode) (text : Text) :
    (classifyFrom mode text).length = text.length := by
  unfold classifyFrom
  fun_induction Fold.run Fold.kinds mode text <;> simp_all [Fold.kinds]

/-- Every character gets exactly one kind. -/
theorem length_classify (text : Text) : (classify text).length = text.length :=
  length_classifyFrom .code text

end Kind

end SwiftWorkspace
