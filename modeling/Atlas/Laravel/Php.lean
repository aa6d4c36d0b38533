import Atlas.Text
import Atlas.Chars.Nested

/-!
# PHP lists and calls

The texts that the rules for PHP sources take apart: bracketed lists (`items`), class names
(`className`), argument lists (`arguments`) and the calls of a fluent chain (`chainCalls`).
-/

namespace Atlas.Laravel.Php

/-- A blank or a quote. -/
def isTrimmed (c : Char) : Bool := Chars.isBlank c || c == '\'' || c == '"'

/-- An item of a list without the quotes and blanks around it. -/
def trimItem (s : String) : String := Text.trimWhile isTrimmed s

/-- The items of a bracketed list. -/
def items (block : String) : List String :=
  ((Text.splitOn ',' block).map trimItem).filter (· ≠ "")

/-- What follows the last backslash. -/
def baseName (s : String) : String := (Text.splitOn '\\' s).getLast?.getD s

/-- The class that an argument names: quoted, with its namespace, or by its `class` constant. -/
def className (argument : String) : String :=
  let a := trimItem argument
  baseName ((Text.dropSuffix? "::class" a).getD a)

/-- The arguments of a list, cut at commas outside brackets and quotes. A blank last one is
none. -/
def arguments (s : String) : List String :=
  let pieces := (Chars.splitTopLevel ['\'', '"'] s.toList).map Chars.trim
  let pieces := if pieces.getLast? = some [] then pieces.dropLast else pieces
  pieces.map String.ofList

/-- A call in a fluent chain. -/
structure Call where
  name : String
  arguments : String
  deriving DecidableEq, Repr

/-- The calls of a chain: after each arrow, the name up to the next opening bracket and the
arguments up to the next closing one. Every call takes at least four characters. -/
def chainCallsFrom : Nat → List Char → List Call
  | 0, _ => []
  | fuel + 1, s =>
    match Chars.cut? "->".toList s with
    | none => []
    | some (_, r) =>
      match Chars.cut? ['('] r with
      | none => []
      | some (name, r) =>
        match Chars.cut? [')'] r with
        | none => []
        | some (arguments, r) =>
          ⟨String.ofList (Chars.trim name), String.ofList (Chars.trim arguments)⟩ ::
            chainCallsFrom fuel r

/-- The calls of a fluent chain, in order. -/
def chainCalls (s : String) : List Call := chainCallsFrom s.length s.toList

end Atlas.Laravel.Php
