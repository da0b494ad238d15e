/-!
# Default literals

A table that gives each type the literal a fresh member of that type starts with. The table is
total: a type it does not list has a literal too.
-/
namespace Blueprint

structure DefaultTable where
  literal : String → String

namespace DefaultTable

/-- The table with the listed literals, and `other` for every type that is not listed. -/
def ofEntries (entries : List (String × String)) (other : String) : DefaultTable :=
  ⟨fun type => (entries.lookup type).getD other⟩

def engine : DefaultTable :=
  ofEntries
    [("int", "0"), ("float", "0.0"), ("bool", "false"), ("String", "\"\""),
      ("Vector2", "Vector2.ZERO"), ("Vector3", "Vector3.ZERO"), ("Color", "Color.WHITE"),
      ("Array", "[]"), ("Dictionary", "\x7b\x7d")]
    "null"

end DefaultTable
end Blueprint
