import EntityQuery.Error.Defect
import EntityQuery.Settings.Paging
import EntityQuery.Sql.Statement
import EntityQuery.Store.Failure
import EntityQuery.Value.ReadFault

namespace EntityQuery

/-!
# Errors

Every way a call can fail. A defect of a definition carries the name of what was defined.
-/

/-- What a call failed with: settings or a definition that make no sense, arguments that do not fit, rows
    that cannot be read, several results where one is asked for, or the store. -/
inductive Error where
  | settings (fault : SettingsFault)
  | definition (name : String) (defect : Defect)
  | parameter (fault : ParameterFault)
  | reading (fault : ReadFault)
  | ambiguous (definition : String)
  | store (failure : StoreFailure)

namespace Error

/-- The error in words, with its kind in front. -/
def message : Error → String
  | .settings fault => "Config error: " ++ fault.message
  | .definition name defect => s!"Definition error in '{name}': " ++ defect.message
  | .parameter fault => "Parameter error: " ++ fault.message
  | .reading fault => fault.message
  | .ambiguous name => s!"Query '{name}' expected at most one result but matched several"
  | .store failure => "Storage failure: " ++ failure.message

end Error

instance : MonadLift (Except SettingsFault) (Except Error) := ⟨Except.mapError .settings⟩

instance : MonadLift (Except ParameterFault) (Except Error) := ⟨Except.mapError .parameter⟩

instance : MonadLift (Except ReadFault) (Except Error) := ⟨Except.mapError .reading⟩

/-- The defect is one of the named definition. -/
def Defect.within {α : Type} (name : String) : Except Defect α → Except Error α :=
  Except.mapError (.definition name)

end EntityQuery
