import Blueprint.Log.Level

/-!
# Events of the log

An event says what happened, and where in the program. Its fields have a name and a text each, and
the message counts as a field of its own.
-/
namespace Blueprint.Log

structure Event where
  level : Level
  /-- The part of the program that the event comes from. -/
  target : String
  message : String
  fields : List (String × String) := []
  deriving DecidableEq

namespace Event

def fieldNames (event : Event) : List String :=
  "message" :: event.fields.map (·.1)

def styled (style : Nat) (text : String) : String :=
  "\x1b[" ++ toString style ++ "m" ++ text ++ "\x1b[0m"

/-- A field as it is logged: its name in slanted letters, a faint equals sign, and its text. -/
def fieldText : String × String → String
  | (name, text) => styled 3 name ++ styled 2 "=" ++ text

/-- What is logged of an event. -/
def text (event : Event) : String :=
  event.level.name ++ " " ++ event.target ++ ": " ++
    " ".intercalate (event.message :: event.fields.map fieldText)

end Event
end Blueprint.Log
