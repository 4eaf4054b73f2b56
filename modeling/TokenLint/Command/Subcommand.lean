import TokenLint.BuildInfo
import TokenLint.Command.Options

/-!
# Subcommands

The program does its work in subcommands. Which one is meant is found out before the command
line is read: it is the first word that is neither an option nor, as far as is known then,
the value of one. A word that names no subcommand is an error, which also says what may have
been meant.
-/

namespace TokenLint.Command

/-- What the program can be asked to do. -/
inductive Subcommand where
  | check | fix | tokens | render | version | help | completion
  deriving DecidableEq, Inhabited

namespace Subcommand

/-- All subcommands. -/
def all : List Subcommand := [.check, .fix, .tokens, .render, .version, .help, .completion]

/-- The name of a subcommand. -/
def name : Subcommand → Text
  | .check => "check"
  | .fix => "fix"
  | .tokens => "tokens"
  | .render => "render"
  | .version => "version"
  | .help => "help"
  | .completion => "completion"

/-- The subcommand with a name. -/
def ofName? (t : Text) : Option Subcommand := all.find? fun s => s.name = t

/-- Does it need exactly one argument? -/
def needsTarget : Subcommand → Bool
  | .check | .fix | .tokens | .render => true
  | _ => false

end Subcommand

/-- The options that every subcommand has. -/
def globalOptions : List OptionSpec :=
  [.text "color", .switch "quiet", .number "max-diagnostics", .text "config", .text "ui",
   .text "trace", .text "trace-level", .text "trace-mode", .number "trace-ring-size",
   { name := "trace-heartbeat", kind := .duration }, .switch "timings", .text "cpu-profile",
   .text "mem-profile", .text "runtime-trace"]

/-- The options of a subcommand, or of the program itself. -/
def optionsOf (s : Option Subcommand) : List OptionSpec :=
  let own : List OptionSpec := match s with
    | none => [{ name := "version", letter := some 118, kind := .switch }]
    | some .check =>
      [.text "format", .text "paths", .number "jobs", .switch "no-warnings",
       .switch "warnings-as-errors", .switch "with-notes", .switch "suggest", .switch "preview",
       .switch "qualified"]
    | some .fix => [.text "mode", .text "id", .switch "dry-run", .number "jobs"]
    | some .tokens => [.text "format"]
    | some .render => [{ name := "output", letter := some 111 }, .switch "in-place"]
    | some .version =>
      [.switch "hash", .switch "message", .switch "date", .switch "full", .text "format"]
    | some .help | some .completion => []
  own ++ { name := "help", letter := some 104, kind := .switch } :: globalOptions

/-! ## Finding the subcommand -/

/-- Is the word after this one taken for its value? That is so for everything that looks like an
option and is not known to be a switch. -/
def takesNext (w : Text) : Bool :=
  let isSwitch := globalOptions.any fun o => o.kind = .switch && w = "--" ++ o.name
  !w.elem 61 && !isSwitch && (w.hasStart "--" || (w.hasStart "-" && w.length = 2))

/-- The words that are neither options nor values of options. -/
def plainWords : List Text → List Text
  | [] => []
  | w :: rest =>
    if w = "--" then []
    else if takesNext w then
      match rest with
      | _ :: next :: more => plainWords (next :: more)
      | _ => []
    else if w = [] || w.hasStart "-" then plainWords rest
    else w :: plainWords rest

/-- The words without the first one that is `x` and neither an option nor the value of one. -/
def withoutFirst (x : Text) : List Text → List Text
  | [] => []
  | w :: rest =>
    if w = "--" then w :: rest
    else if takesNext w then
      match rest with
      | v :: more => w :: v :: withoutFirst x more
      | [] => [w]
    else if !w.hasStart "-" && w = x then rest
    else w :: withoutFirst x rest

/-- The next row of the table of distances between the beginnings of two texts. -/
def nextRow (a : UInt8) : Nat → Nat → Text → List Nat → List Nat
  | left, diagonal, b :: bs, up :: ups =>
    let here := if a = b then diagonal else min (min up left) diagonal + 1
    here :: nextRow a here up bs ups
  | _, _, _, _ => []

/-- The least number of bytes to insert, delete or replace to get from one text to the other. -/
def distance (s t : Text) : Nat :=
  let first := List.range (t.length + 1)
  let last := s.foldl (fun row a =>
    match row with
    | corner :: ups => (corner + 1) :: nextRow a (corner + 1) corner t ups
    | [] => []) first
  last.getLastD 0

/-- The subcommands that may have been meant by a word. Help is never suggested. -/
def suggestions (w : Text) : List Subcommand :=
  Subcommand.all.filter fun s =>
    s ≠ .help && (distance (Text.lower w) s.name ≤ 2 || s.name.hasStart (Text.lower w))

/-- The line for a subcommand that may have been meant. -/
def hintLine (s : Subcommand) : Text := 9 :: s.name ++ [Text.newline]

/-- The complaint about a word that names no subcommand. -/
def unknownCommand (w : Text) : Text :=
  let hints := (suggestions w).flatMap hintLine
  "unknown command " ++ Text.quoted w ++ " for " ++ Text.quoted BuildInfo.programName
    ++ Text.onlyIf (hints ≠ []) ("\n\nDid you mean this?\n" ++ hints)

/-- The subcommand that is meant, none if it is the program itself, and the other words. -/
def findSubcommand (words : List Text) : Except Text (Option Subcommand × List Text) :=
  match plainWords words with
  | [] => .ok (none, words)
  | w :: _ =>
    match Subcommand.ofName? w with
    | some s => .ok (some s, withoutFirst w words)
    | none => .error (unknownCommand w)

end TokenLint.Command
