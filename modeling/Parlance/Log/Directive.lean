import Parlance.Log
import Parlance.Text.Blank
import Parlance.Text.Split

/-! Directives say how much of the log is told. A directive sets the level for the targets whose names begin with its own
name, or for all targets; the longest name that fits decides, and a later directive of the same name replaces an
earlier one. -/
namespace Parlance

structure Directive where
  target : Option String
  /-- The highest rank of level that is told. -/
  rank : Nat
deriving DecidableEq, Repr

namespace Directive

def everything : Nat := Level.trace.rank

def levelNames : List (String × Nat) :=
  [("off", 0), ("error", Level.error.rank), ("warn", Level.warn.rank), ("info", Level.info.rank),
    ("debug", Level.debug.rank), ("trace", Level.trace.rank)]

/-- The rank that a level's name stands for, in whatever case it is written. -/
def rank? (text : List Char) : Option Nat :=
  (levelNames.find? fun (name, _) => name.toList == text.map Char.toLower).map Prod.snd

/-- Reads `target`, `target=level` or a level for every target; else gives back what is wrong. -/
def read (text : List Char) : Except (List Char) Directive :=
  match (Text.splitOn '=' text).map fun part => (part, Text.trim part) with
  | [(target, trimmed)] =>
    match rank? trimmed with
    | some rank => .ok ⟨none, rank⟩
    | none => .ok ⟨some (String.ofList target), everything⟩
  | [(target, _), (_, [])] => .ok ⟨some (String.ofList target), everything⟩
  | [(target, _), (_, level)] =>
    match rank? level with
    | some rank => .ok ⟨some (String.ofList target), rank⟩
    | none => .error level
  | _ => .error text

def insert (directive : Directive) : List Directive → List Directive
  | [] => [directive]
  | other :: rest =>
    if other.target = directive.target then directive :: rest else other :: insert directive rest

/-- Reads a comma-separated list of directives. What cannot be read is left out and named in a warning. -/
def readAll (text : String) : List Directive × List String :=
  let parts := ((Text.splitOn ',' text.toList).map Text.trim).filter (· ≠ [])
  parts.foldl (fun (directives, warnings) part =>
    match read part with
    | .ok directive => (insert directive directives, warnings)
    | .error wrong =>
      (directives, warnings ++ [s!"warning: invalid logging spec '{String.ofList wrong}', ignoring it\n"]))
    ([], [])

def fits (directive : Directive) (target : Target) : Bool :=
  match directive.target with
  | none => true
  | some name => name.toList.isPrefixOf target.name.toList

def weight (directive : Directive) : Nat :=
  match directive.target with
  | none => 0
  | some name => name.utf8ByteSize

/-- The rank told for a target: of the directives that fit, the one with the longest name decides. -/
def rankFor (directives : List Directive) (target : Target) : Nat :=
  let best := (directives.filter (·.fits target)).foldl (fun best directive =>
    match best with
    | none => some directive
    | some other => if other.weight ≤ directive.weight then some directive else some other) none
  (best.map Directive.rank).getD 0

def filter (directives : List Directive) : Filter :=
  ⟨rankFor directives .lex, rankFor directives .parse, rankFor directives .eval⟩

/-- Adds everything about the given targets. -/
def withTargets (directives : List Directive) (targets : List Target) : List Directive :=
  targets.foldl (fun directives target => insert ⟨some target.name, everything⟩ directives) directives

end Directive
end Parlance
