import Statechart.Value.Basic

/-!
# Scripts

A small language for guards, factories, reducers and recipes. A `Program` edits its draft, which is
the first argument, statement by statement and then returns the value of an expression. An
expression can create a recipe: a handle on another program of the same library that keeps the
arguments of the call that created it.
-/

namespace Statechart.Script

/-- An expression over the arguments and the draft of a call. -/
inductive Expr where
  | lit (v : Value)
  | arg (i : Nat)
  | draft
  /-- A recipe whose body is the program with the given code. -/
  | recipe (code : Nat)
  | throw (message : String)
  | dict (entries : List (Value × Expr))
  | ite (c x y : Expr)
  | and (x y : Expr)
  | or (x y : Expr)
  | not (x : Expr)
  | index (x k : Expr)
  | get (m k d : Expr)
  | count (x y : Expr)
  | length (x : Expr)
  | eq (x y : Expr)
  | less (x y : Expr)
  | lessOrEqual (x y : Expr)
  | add (x y : Expr)
  | text (x : Expr)
  | list (xs : List Expr)
  | tuple (xs : List Expr)
  | result (u o : Expr)
  | kind (d : Expr)
  | name (d : Expr)
  | params (d : Expr)
deriving Inhabited

/-- What a statement does to the part of the draft at its path. -/
inductive Edit where
  | append (x : Expr)
  | pop
  | set (k x : Expr)
  | delete (k : Expr)
  | increment (k : Expr)
deriving Inhabited

/-- A statement: the keys that lead from the draft to a part of it, and the edit of that part. -/
structure Stmt where
  path : List Value
  edit : Edit
deriving Inhabited

/-- A program. The arguments that the expressions of a nested one speak of are those of the call
that created it. -/
structure Program where
  nested : Bool
  body : List Stmt
  value : Option Expr

end Statechart.Script
