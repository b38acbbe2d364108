import WritePlan.Entity
import WritePlan.Text.SnakeCase

namespace WritePlan

open Text

structure Naming where
  /-- The table of an entity type. -/
  table : EntityType → String
  /-- The column of a property. -/
  column : String → String
  /-- The column of a child table that refers to a parent table. -/
  reverseColumn : String → String
  /-- The column that holds list positions or map keys beside a reverse column. -/
  keyColumn : String → String

namespace Naming

/-- Snake case; a reverse column is named like the table it refers to. -/
def snake : Naming where
  table type := snakeCase type.name
  column := snakeCase
  reverseColumn table := table
  keyColumn reverse := reverse ++ "_key"

def upper : Naming where
  table type := upperCase (snakeCase type.name)
  column property := upperCase (snakeCase property)
  reverseColumn table := table
  keyColumn reverse := reverse ++ "_KEY"

end Naming

end WritePlan
