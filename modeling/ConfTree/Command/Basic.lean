/-
Module: ConfTree.Command.Basic
Purpose: What can be asked for on the command line.
Main exports:
  Format, Command, Request
-/
import ConfTree.Strategy

namespace ConfTree

/-- The form in which a value is printed. -/
inductive Format where
  /-- The indented listing. -/
  | dump
  /-- JSON with a line for each item. -/
  | json
deriving Repr, Inhabited, DecidableEq

/-- The format of that exact name. -/
def Format.ofName? : String → Option Format
  | "dump" => some .dump
  | "json" => some .json
  | _ => none

/-- A piece of work.  Without an input file the document comes from standard input,
and without an output file the result goes to standard output. -/
inductive Command where
  /-- Print a document. -/
  | render (input output : Option String) (strategy : Strategy) (format : Format)
  /-- Print the value at a path of a document. -/
  | get (path : String) (input : Option String) (strategy : Strategy) (format : Format)
  /-- Check a manifest and print its records. -/
  | manifest (input output : Option String)
deriving Repr, DecidableEq

/-- The file that a command reads. -/
def Command.input : Command → Option String
  | render input _ _ _ | get _ input _ _ | manifest input _ => input

/-- The file that a command writes. -/
def Command.output : Command → Option String
  | render _ output _ _ | manifest _ output => output
  | get _ _ _ _ => none

/-- What a command line comes to. -/
inductive Request where
  /-- Do some work, telling of it with so much detail. -/
  | work (verbosity : Nat) (command : Command)
  /-- Print the name and version of the program. -/
  | version
  /-- Print how the program is used. -/
  | help
  /-- The command line makes no sense. -/
  | misuse
deriving Repr, DecidableEq

end ConfTree
