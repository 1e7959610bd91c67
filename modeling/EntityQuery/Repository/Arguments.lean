import EntityQuery.Paging.Request
import EntityQuery.Result.Target

namespace EntityQuery

/-!
# Arguments of a call

The values for the slots of a statement, and what the call adds to its definition: the page, the
order, and the target where the definition leaves it open.
-/

/-- What comes with a call. Values are given by position, under names, or both. -/
structure CallArguments where
  positional : List Value := []
  named : List (String × Value) := []
  page : Option PageRequest := none
  order : SortOrder := []
  target : Option Target := none

namespace CallArguments

/-- The order of the call itself, followed by that of the page. -/
def fullOrder (args : CallArguments) : SortOrder :=
  args.order ++ (args.page.map PageRequest.order).getD []

/-- The value of a slot: under its name if one is given, or else by its index. -/
def lookup (args : CallArguments) (slot : Slot) : Except ParameterFault Value :=
  match (slot.name.bind fun name => args.named.lookup name).or args.positional[slot.index]? with
  | some value => .ok value
  | none => .error (.noValue slot args.positional.length args.named.length)

end CallArguments

end EntityQuery
