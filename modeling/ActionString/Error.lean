/-!
# Errors of the vocabulary

Words that name nothing, and fields that are given twice.
-/

namespace ActionString

/-- Why a word or a field was refused. -/
inductive Error where
  | unknownTrigger (word : String)
  | unknownCommand (word : String)
  | duplicateField (field : String)
  deriving DecidableEq, Repr

/-- The text of an error. -/
def Error.message : Error → String
  | unknownTrigger word => "unknown trigger `" ++ word ++ "`"
  | unknownCommand word => "unknown command type `" ++ word ++ "`"
  | duplicateField field => "field `" ++ field ++ "` is already set"

end ActionString
