import Blueprint.Record.Basic
import Blueprint.Text.Pieces

/-!
# Script emission

The GDScript that is written for a record, as a list of lines. A block is a heading, the lines of
its members and an empty line; a block without members is left out. Nothing is checked: the texts of
the record go into the script as they are.
-/
namespace Blueprint.Script

/-- A script text: each line ends in a line feed. -/
def ofLines (lines : List String) : String :=
  String.join (lines.map (· ++ "\n"))

/-- A heading, lines and an empty line, or nothing when there are no lines. -/
def block (heading : String) (lines : List String) : List String :=
  if lines.isEmpty then [] else [heading] ++ lines ++ [""]

def signalLine (s : Signal) : String :=
  "signal " ++ if s.params.isEmpty then s.name else s.display

def constantLine (c : Constant) : String :=
  "const " ++ c.name ++ ": " ++ c.type ++ " = " ++ c.value

def variableLine (name type : String) (value : Option String) : String :=
  "var " ++ name ++ ": " ++ type ++ (value.map (" = " ++ ·)).getD ""

def propertyLine (p : Property) : String :=
  variableLine p.name p.type p.default

/-- The lines of the values of an enumeration: a comma follows all but the last. -/
def valueLines (indent : String) : List String → List String
  | [] => []
  | [value] => [indent ++ value]
  | value :: rest => (indent ++ value ++ ",") :: valueLines indent rest

def enumerationLines (indent : String) (e : Enumeration) : List String :=
  ["enum " ++ e.name ++ " \x7b"] ++ valueLines indent e.values ++ ["\x7d"]

/-- The result of a function is named unless it is nothing or `void`. -/
def functionLine (f : Function) : String :=
  "func " ++ f.name ++ "(" ++ ", ".intercalate f.params ++ ")" ++
    (if f.returnType = "" || f.returnType = "void" then "" else " -> " ++ f.returnType) ++ ":"

def linesOf (text : String) : List String :=
  (Text.pieces (· == '\n') text.toList).map String.ofList

/-- The body of a function, each line indented; a function without a body does nothing. -/
def bodyLines (indent : String) (f : Function) : List String :=
  match f.body with
  | some body => (linesOf body).map (indent ++ ·)
  | none => [indent ++ "pass"]

def functionLines (indent : String) (f : Function) : List String :=
  [functionLine f] ++ bodyLines indent f ++ [""]

/-- What stands above the members of a class script. -/
def opening (r : ClassRecord) : List String :=
  match r.kind with
  | .interface =>
    ["# Interface " ++ r.name,
      "# This is an interface definition - implement in concrete classes", ""]
  | _ => ["class_name " ++ r.name] ++ (r.parent.map ("extends " ++ ·)).toList ++ [""]

def classLines (indent : String) (r : ClassRecord) : List String :=
  opening r ++
    block "# Signals" (r.signals.map signalLine) ++
    block "# Constants" (r.constants.map constantLine) ++
    block "# Enums" (r.enums.flatMap (enumerationLines indent)) ++
    block "# Variables" (r.allProperties.map propertyLine) ++
    (if r.functions.isEmpty then []
      else ["# Functions"] ++ r.functions.flatMap (functionLines indent))

/-- The script of a class. -/
def ofClass (indent : String) (r : ClassRecord) : String :=
  ofLines (classLines indent r)

/-- The variables of an autoload script: constants, then all but the interface properties. -/
def globalVariables (r : ClassRecord) : List String :=
  r.constants.map (fun c => variableLine c.name c.type (some c.value)) ++
    (r.flags ++ r.currentProps ++ r.uniqueProps).map propertyLine

/-- The hook that an autoload script runs when it is loaded. -/
def readyLines (indent name : String) : List String :=
  ["func _ready():", indent ++ "print(\"" ++ name ++ " autoload ready\")",
    indent ++ "# Autoload initialization", ""]

def autoloadLines (indent : String) (r : ClassRecord) : List String :=
  ["# Autoload: " ++ r.name, "# Generated by weave", "", "extends Node", ""] ++
    block "# Global signals" (r.signals.map signalLine) ++
    block "# Global variables" (globalVariables r) ++
    readyLines indent r.name ++
    r.functions.flatMap (functionLines indent)

/-- The singleton script of a class. -/
def ofAutoload (indent : String) (r : ClassRecord) : String :=
  ofLines (autoloadLines indent r)

end Blueprint.Script
