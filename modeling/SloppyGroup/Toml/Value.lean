/-!
TOML values. Of dates and times it only matters that they are some.
-/

namespace SloppyGroup.Toml

inductive Value where
  | string (content : String)
  | integer (value : Int)
  | float (value : Float)
  | bool (value : Bool)
  | time
  | array (items : List Value)
  | table (members : List (String × Value))
deriving Inhabited

/-- A key with the keys of the tables that lead to it. -/
structure Path where
  parents : List String
  key : String
deriving DecidableEq, Repr

/-- A statement of a document. -/
inductive Statement where
  /-- The statements that follow are about a table. -/
  | table (path : Path)
  /-- The statements that follow are about a new table at the end of an array. -/
  | arrayTable (path : Path)
  | assign (path : Path) (value : Value)

end SloppyGroup.Toml
