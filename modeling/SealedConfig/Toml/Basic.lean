/-!
# TOML trees

The values of a settings text. A table keeps its entries in the order in which they were first written down.
-/

namespace SealedConfig

/-- A TOML value. A float is kept as its shortest text, and of a date or time only that it is one. -/
inductive Toml where
  | string (value : String)
  | integer (value : Int)
  | float (shown : String)
  | boolean (value : Bool)
  | moment
  | array (items : List Toml)
  | table (entries : List (String × Toml))
  deriving Repr, Inhabited

end SealedConfig
