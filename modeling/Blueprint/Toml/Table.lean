import Blueprint.Toml.DateTime

/-!
# TOML tables

A table is built up line by line. How a part of it came to be decides what later lines may add: a
table that a header has stated cannot be stated again or reached by a dotted key, and an inline
table is complete as it stands. A list of tables grows by a header of its own, and whatever leads into it
leads into the table that was added last.
-/
namespace Blueprint

namespace Toml

/-- How a table came to be. -/
inductive Origin where
  /-- A header names the table. -/
  | stated
  /-- A header names a table inside it. -/
  | implied
  /-- A dotted key leads into it. -/
  | dotted
  /-- It stands between braces. -/
  | inline
  deriving DecidableEq

end Toml

inductive Toml where
  | text (s : String)
  | integer (n : Int)
  | float (f : Float)
  | bool (b : Bool)
  | dateTime (t : Toml.DateTime)
  | list (items : List Toml)
  | table (origin : Toml.Origin) (entries : List (String × Toml))
  /-- A list of tables that headers have added. -/
  | tables (earlier : List Toml) (last : List (String × Toml))

namespace Toml

abbrev Table := List (String × Toml)

namespace Table

def replace (t : Table) (key : String) (v : Toml) : Table :=
  t.map fun entry => if entry.1 = key then (key, v) else entry

/-- Defines a dotted key. The key must be new, the table that it is put into must have been made by
dotted keys, and no table on the way may have been stated or written inline, unless it is the last
one of a list. -/
def define (v : Toml) : List String → Table → Option Table
  | [], _ => none
  | [key], t => if (t.lookup key).isSome then none else some (t ++ [(key, v)])
  | key :: next :: path, t =>
    match t.lookup key with
    | none => (define v (next :: path) []).map fun inner => t ++ [(key, .table .dotted inner)]
    | some (.table .dotted inner) =>
      (define v (next :: path) inner).map fun inner => t.replace key (.table .dotted inner)
    | some (.table .implied inner) =>
      if path = [] then none
      else (define v (next :: path) inner).map fun inner => t.replace key (.table .implied inner)
    | some (.tables earlier last) =>
      if path = [] then none
      else (define v (next :: path) last).map fun last => t.replace key (.tables earlier last)
    | some _ => none

/-- States a table. It must be new or merely implied, and takes the last place either way. -/
def stateTable (key : String) (t : Table) : Option Table :=
  match t.lookup key with
  | none => some (t ++ [(key, .table .stated [])])
  | some (.table .implied inner) =>
    some (t.filter (fun entry => entry.1 ≠ key) ++ [(key, .table .stated inner)])
  | some _ => none

def addTable (key : String) (t : Table) : Option Table :=
  match t.lookup key with
  | none => some (t ++ [(key, .tables [] [])])
  | some (.tables earlier last) =>
    some (t.replace key (.tables (earlier ++ [.table .stated last]) []))
  | some _ => none

/-- Declares what a header names, in the way that the header asks for. Tables on the way to it are
implied where they are new. -/
def declare (place : String → Table → Option Table) : List String → Table → Option Table
  | [], _ => none
  | [key], t => place key t
  | key :: next :: path, t =>
    match t.lookup key with
    | none =>
      (declare place (next :: path) []).map fun inner => t ++ [(key, .table .implied inner)]
    | some (.table .inline _) => none
    | some (.table origin inner) =>
      (declare place (next :: path) inner).map fun inner => t.replace key (.table origin inner)
    | some (.tables earlier last) =>
      (declare place (next :: path) last).map fun last => t.replace key (.tables earlier last)
    | some _ => none

/-- The key that makes a table stand for a date or time. -/
def dateTimeKey : String :=
  "$__toml_private_datetime"

/-- What a table holds that stands for a date or time: its first key is the one for that. -/
def dateTimeEntry? : Table → Option Toml
  | (key, v) :: _ => if key = dateTimeKey then some v else none
  | [] => none

/-- Changes the table at a path. -/
def within (change : Table → Option Table) : List String → Table → Option Table
  | [], t => change t
  | key :: path, t =>
    match t.lookup key with
    | some (.table origin inner) =>
      (within change path inner).map fun inner => t.replace key (.table origin inner)
    | some (.tables earlier last) =>
      (within change path last).map fun last => t.replace key (.tables earlier last)
    | _ => none

end Table
end Toml
end Blueprint
